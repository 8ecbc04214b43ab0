import Mathlib.Data.List.Nodup
import MoteCapture.Proofs.Recorder.Books
import MoteCapture.Proofs.Recorder.Calls
import MoteCapture.Proofs.Recorder.Record
import MoteCapture.Proofs.Sheet.Closing

/-!
What a recorder notes in the journal: lines and rows, and no warnings but those about sheets that cannot
be flushed. What stands in the journal already stays there.

Which milestones a capture passes is told by its plan and the reports that it took: the start, and one for
the first row of each mote. A recorder notes none of them itself; but it keeps abreast of the reports, so
that it has a sheet exactly for the motes whose milestone was passed.
-/

namespace MoteCapture

def Site.Adds (kind : Entry → Prop) (site later : Site) : Prop :=
  ∃ news, later.journal.toList = site.journal.toList ++ news ∧ ∀ entry ∈ news, kind entry

section Adds

variable {kind wider : Entry → Prop} {site met later : Site} {entry : Entry}

theorem Site.adds_none (site : Site) (disk : Disk) : site.Adds kind { site with disk } := by
  refine ⟨[], (List.append_nil _).symm, ?_⟩
  intro entry member
  cases member

theorem Site.adds_note (site : Site) (disk : Disk) (is : kind entry) :
    site.Adds kind ⟨disk, site.journal.note entry⟩ := by
  refine ⟨[entry], site.journal.toList_note entry, ?_⟩
  intro other member
  rw [List.mem_singleton.mp member]
  exact is

theorem Site.Adds.trans (first : site.Adds kind met) (second : met.Adds kind later) :
    site.Adds kind later := by
  obtain ⟨early, whole, kinds⟩ := first
  obtain ⟨late, whole', kinds'⟩ := second
  refine ⟨early ++ late, ?_, ?_⟩
  · rw [whole', whole, List.append_assoc]
  · intro entry member
    rcases List.mem_append.mp member with old | new
    · exact kinds entry old
    · exact kinds' entry new

theorem Site.Adds.mono (adds : site.Adds kind later) (widens : ∀ entry, kind entry → wider entry) :
    site.Adds wider later := by
  obtain ⟨news, whole, kinds⟩ := adds
  exact ⟨news, whole, fun entry member => widens entry (kinds entry member)⟩

theorem Site.Adds.mem (adds : site.Adds kind later) (member : entry ∈ later.journal.toList) :
    entry ∈ site.journal.toList ∨ kind entry := by
  obtain ⟨news, whole, kinds⟩ := adds
  rw [whole] at member
  exact (List.mem_append.mp member).imp_right (kinds entry)

end Adds

inductive Recorder.Notes : Entry → Prop where
  | line {level : Level} {text : String} (calm : level ≠ .warn) : Notes (.line level text)
  | row (mote : MoteId) (text : String) : Notes (.row mote text)
  | unflushed (path cause : String) :
      Notes (.line .warn ("Failed to flush CSV sink " ++ path ++ ": " ++ cause))

open Recorder (Notes)

theorem Site.adds_line (site : Site) (disk : Disk) (level : Level) (text : String) (calm : level ≠ .warn) :
    site.Adds Notes ⟨disk, site.journal.note (.line level text)⟩ :=
  site.adds_note disk (.line calm)

theorem Sheet.adds_create (site : Site) (path header : String) :
    site.Adds Notes (create site path header).2 := by
  unfold create
  split
  · exact site.adds_none _
  · split
    · exact site.adds_none _
    · split
      · exact site.adds_none _
      · exact site.adds_line _ .debug _ nofun

theorem Sheet.notes_closingEntry (sheet : Sheet) (disk : Disk) : Notes (sheet.closingEntry disk) := by
  unfold closingEntry
  split
  · exact .line nofun
  · exact .unflushed _ _

theorem OpenSheets.adds_closeEach (site : Site) (sheets : List (MoteId × Sheet)) :
    site.Adds Notes (closeEach site sheets).2 := by
  refine ⟨_, closeEach_journal site sheets, ?_⟩
  intro entry member
  obtain ⟨sheet, -, rfl⟩ := List.mem_map.mp member
  exact Sheet.notes_closingEntry _ _

namespace Recorder

theorem adds_openSheet (plan : CapturePlan) (mote : MoteId) (site : Site) :
    site.Adds Notes (openSheet plan mote site).2 := by
  unfold openSheet
  exact (site.adds_line _ .info _ nofun).trans (Sheet.adds_create _ _ _)

theorem adds_obtain (opened : OpenSheets) (plan : CapturePlan) (mote : MoteId) (site : Site) :
    site.Adds Notes (opened.obtain mote site (openSheet plan mote)).2.2.2 := by
  have adds := adds_openSheet plan mote site
  unfold OpenSheets.obtain
  split
  · exact site.adds_none _
  · split
    · next made => rw [made] at adds; exact adds
    · next made => rw [made] at adds; exact adds

theorem adds_echo (recorder : Recorder) (site : Site) (mote : MoteId) (row : String) :
    site.Adds Notes (recorder.echo site mote row).2 := by
  unfold echo
  split
  · exact site.adds_note _ (.row mote row)
  · exact site.adds_none _

theorem adds_keep (recorder : Recorder) (site : Site) (report : Report) :
    site.Adds Notes (recorder.keep site report).2.2 := by
  have adds := adds_obtain recorder.opened recorder.plan report.mote site
  unfold keep
  split
  · next outcome => rw [outcome] at adds; exact adds
  · next outcome =>
    rw [outcome] at adds
    split
    · exact adds.trans (Site.adds_none _ _)
    · exact (adds.trans (Site.adds_none _ _)).trans (adds_echo _ _ _ _)

theorem adds_take (recorder : Recorder) (site : Site) (report : Report) :
    site.Adds Notes (recorder.take site report).2.2 := by
  unfold take
  split
  · exact site.adds_none _
  · exact site.adds_none _
  · split
    · exact site.adds_line _ .info _ nofun
    · exact site.adds_none _
  · simp only
    split
    · exact adds_keep _ _ _
    · exact site.adds_none _

theorem adds_stop (recorder : Recorder) (site : Site) (reason : StopReason) :
    site.Adds Notes (recorder.stop site reason).2.2 := by
  rcases recorder.stopped_or_running with ⟨earlier, phase⟩ | running
  · rw [stop_again phase]
    exact site.adds_line _ .debug _ nofun
  · have begins : site.Adds Notes (site.info ("Shutting down capture: " ++ reason.text)) :=
      site.adds_line _ .info _ nofun
    have closes := OpenSheets.adds_closeEach
      (site.info ("Shutting down capture: " ++ reason.text)) recorder.opened.sheets
    rw [stop_first running]
    split
    · next closing => rw [closing] at closes; exact begins.trans closes
    · next closing => rw [closing] at closes; exact begins.trans closes

theorem adds_discard (recorder : Recorder) (site : Site) :
    site.Adds Notes (recorder.discard site) := by
  unfold discard
  split
  · exact site.adds_none _
  · have begins : site.Adds Notes (site.debug
        ("Capturer dropped with " ++ toString recorder.opened.size ++ " open sinks")) :=
      site.adds_line _ .debug _ (by decide)
    have closes := OpenSheets.adds_closeEach (site.debug
      ("Capturer dropped with " ++ toString recorder.opened.size ++ " open sinks"))
      recorder.opened.sheets
    have closed := begins.trans closes
    simp only [OpenSheets.closeAll]
    split
    · exact closed
    · exact closed.trans (Site.adds_line _ _ .error _ (by decide))

end Recorder

def Entry.isMilestone : Entry → Bool
  | .milestone _ _ => true
  | _ => false

namespace Journal

def milestones (journal : Journal) : List Entry :=
  journal.toList.filter Entry.isMilestone

variable (journal later : Journal)

@[simp] theorem milestones_line (level : Level) (text : String) :
    (journal.note (.line level text)).milestones = journal.milestones := by
  simp [milestones, Entry.isMilestone]

@[simp] theorem milestones_mark (name : String) (facts : List Fact) :
    (journal.mark name facts).milestones = journal.milestones ++ [.milestone name facts] := by
  simp [milestones, mark, Entry.isMilestone]

@[simp] theorem milestones_append :
    (journal.append later).milestones = journal.milestones ++ later.milestones := by
  simp [milestones]

end Journal

def Site.Passes (site later : Site) : Prop :=
  later.journal.milestones = site.journal.milestones

theorem Recorder.Notes.isMilestone {entry : Entry} (notes : Recorder.Notes entry) :
    entry.isMilestone = false := by
  cases notes with
  | line calm => rfl
  | row mote text => rfl
  | unflushed path cause => rfl

theorem Site.Adds.passes {site later : Site} (adds : site.Adds Recorder.Notes later) :
    site.Passes later := by
  obtain ⟨news, whole, notes⟩ := adds
  have none : news.filter Entry.isMilestone = [] := by
    rw [List.filter_eq_nil_iff]
    intro entry member
    simp [(notes entry member).isMilestone]
  rw [Passes, Journal.milestones, whole, List.filter_append, none, List.append_nil, Journal.milestones]

/-! The milestones of a capture. -/

namespace CapturePlan

def startedBy (report : Report) : Entry :=
  .milestone "capture_started" [.ofNat "node" report.mote.toNat, .ofWord "time" report.time]

def openedFor (plan : CapturePlan) (mote : MoteId) : Entry :=
  .milestone "sink_opened" [.ofNat "node" mote.toNat, .ofText "path" (plan.path mote)]

def keptMotes (plan : CapturePlan) (reports : List Report) : List MoteId :=
  ((plan.kept reports).map Report.mote).eraseDups

/-- What a capture of some reports passes up to its stop. -/
def milestones (plan : CapturePlan) (reports : List Report) : List Entry :=
  (reports.find? plan.starts).toList.map startedBy ++ (plan.keptMotes reports).map plan.openedFor

variable {plan : CapturePlan} {seen : List Report} {report : Report}

theorem mem_keptMotes {mote : MoteId} :
    mote ∈ plan.keptMotes seen ↔ ∃ report ∈ plan.kept seen, report.mote = mote := by
  rw [keptMotes, List.mem_eraseDups, List.mem_map]

theorem eraseDups_concat {motes : List MoteId} {mote : MoteId} :
    (motes ++ [mote]).eraseDups =
      motes.eraseDups ++ if mote ∈ motes.eraseDups then [] else [mote] := by
  rw [List.eraseDups_append]
  by_cases old : mote ∈ motes
  · simp [List.removeAll, old]
  · simp [List.removeAll, old, List.eraseDups_cons]

theorem nodup_keptMotes (plan : CapturePlan) (reports : List Report) :
    (plan.keptMotes reports).Nodup := by
  rw [keptMotes]
  induction (plan.kept reports).map Report.mote using List.reverseRecOn with
  | nil => exact List.nodup_nil
  | append_singleton motes mote ih =>
      rw [eraseDups_concat]
      split
      · rw [List.append_nil]
        exact ih
      · next new =>
        refine List.nodup_append.mpr ⟨ih, List.nodup_singleton mote, ?_⟩
        rintro other member last same rfl
        rw [List.mem_singleton.mp same] at member
        exact new member

theorem mem_keptMotes_row {mote : MoteId} (started : seen.any plan.starts = true)
    (keeps : plan.keeps report = true) :
    mote ∈ plan.keptMotes (seen ++ [report]) ↔ mote ∈ plan.keptMotes seen ∨ mote = report.mote := by
  rw [mem_keptMotes, mem_keptMotes, kept_append, if_pos ⟨started, keeps⟩]
  simp only [List.mem_append, List.mem_singleton, or_and_right, exists_or, exists_eq_left]
  rw [eq_comm (a := mote)]

theorem find?_started (passed : seen.any plan.starts = false → plan.starts report = false) :
    (seen ++ [report]).find? plan.starts = seen.find? plan.starts := by
  rw [List.find?_append]
  cases found : seen.find? plan.starts with
  | some first => rfl
  | none =>
      have waits := List.any_eq_false.mpr (List.find?_eq_none.mp found)
      rw [List.find?_singleton, passed waits]
      rfl

-- A report that neither starts the capture nor becomes a row passes nothing.
theorem milestones_passed (passed : seen.any plan.starts = false → plan.starts report = false)
    (kept : plan.kept (seen ++ [report]) = plan.kept seen) :
    plan.milestones (seen ++ [report]) = plan.milestones seen := by
  rw [milestones, keptMotes, kept, find?_started passed, milestones, keptMotes]

theorem milestones_start (waits : seen.any plan.starts = false) (starts : plan.starts report = true) :
    plan.milestones (seen ++ [report]) = plan.milestones seen ++ [startedBy report] := by
  have unstarted : ∀ report ∈ seen, plan.starts report = false := by simpa using waits
  have none : seen.find? plan.starts = none := by simpa using unstarted
  have kept : plan.kept seen = [] := kept_unstarted unstarted
  have kept' : plan.kept (seen ++ [report]) = [] := by simp [kept_append, kept, waits]
  rw [milestones, keptMotes, kept', milestones, keptMotes, kept, List.find?_append, none,
    List.find?_singleton, starts]
  rfl

theorem keptMotes_row (started : seen.any plan.starts = true) (keeps : plan.keeps report = true) :
    plan.keptMotes (seen ++ [report]) = plan.keptMotes seen ++
      if report.mote ∈ plan.keptMotes seen then [] else [report.mote] := by
  rw [keptMotes, kept_append, if_pos ⟨started, keeps⟩, List.map_append, List.map_singleton,
    eraseDups_concat, keptMotes]

-- A row passes the milestone of its mote if it is the first one.
theorem milestones_row (started : seen.any plan.starts = true) (keeps : plan.keeps report = true) :
    plan.milestones (seen ++ [report]) = plan.milestones seen ++
      if report.mote ∈ plan.keptMotes seen then [] else [plan.openedFor report.mote] := by
  have again : seen.any plan.starts = false → plan.starts report = false := by
    intro waits
    rw [waits] at started
    cases started
  rw [milestones, keptMotes_row started keeps, List.map_append, ← List.append_assoc,
    find?_started again, ← milestones]
  split
  · rfl
  · rfl

end CapturePlan

namespace Recorder

variable {recorder later : Recorder} {site : Site} {report : Report}

structure HasSeen (plan : CapturePlan) (seen : List Report) (recorder : Recorder) : Prop where
  booked : recorder.Booked plan
  orderly : recorder.Orderly
  phase : recorder.phase = if seen.any plan.starts then .capturing else .waiting
  opened : ∀ mote, recorder.opened.contains mote = true ↔ mote ∈ plan.keptMotes seen

section HasSeen

variable {plan : CapturePlan} {seen : List Report} {verdict : Verdict} {disk : Disk}

theorem hasSeen_new (plan : CapturePlan) (echoes : Bool) : (new plan echoes).HasSeen plan [] where
  booked := booked_new plan echoes
  orderly := orderly_new plan echoes
  phase := rfl
  opened mote := by
    refine iff_of_false Bool.false_ne_true ?_
    exact List.not_mem_nil

theorem HasSeen.running (has : recorder.HasSeen plan seen) (reason : StopReason) :
    recorder.phase ≠ .stopped reason := by
  rw [has.phase]
  split
  · exact nofun
  · exact nofun

theorem HasSeen.any_starts (has : recorder.HasSeen plan seen) :
    (recorder.phase = .waiting → seen.any plan.starts = false) ∧
      (recorder.phase = .capturing → seen.any plan.starts = true) := by
  rw [has.phase]
  cases seen.any plan.starts with
  | false => exact ⟨fun _ => rfl, nofun⟩
  | true => exact ⟨nofun, fun _ => rfl⟩

-- What a report that breaks nothing brings.
theorem HasSeen.took (has : recorder.HasSeen plan seen)
    (took : recorder.Took site report (.ok verdict) later disk) :
    later.HasSeen plan (seen ++ [report]) := by
  have follows := has.booked.follows
  have booked := has.booked.took took
  have orderly := took.orderly has.orderly
  obtain ⟨waits, started⟩ := has.any_starts
  cases took with
  | early phase starts =>
      rw [follows] at starts
      refine ⟨booked, orderly, ?_, ?_⟩
      · simp [waits phase, starts, countReport, phase]
      · simp [CapturePlan.keptMotes, plan.kept_append, waits phase, countReport, has.opened]
  | start phase starts =>
      rw [follows] at starts
      refine ⟨booked, orderly, ?_, ?_⟩
      · simp [starts]
      · simp [CapturePlan.keptMotes, plan.kept_append, waits phase, countReport, has.opened]
  | skipped phase keeps =>
      rw [follows] at keeps
      refine ⟨booked, orderly, ?_, ?_⟩
      · simp [started phase, countReport, countSkipped, phase]
      · simp [CapturePlan.keptMotes, plan.kept_append, keeps, countReport, countSkipped, has.opened]
  | kept phase keeps obtained written =>
      rw [follows] at keeps
      refine ⟨booked, orderly, ?_, ?_⟩
      · simp [started phase, countReport, countRow, phase]
      · intro mote
        rw [CapturePlan.mem_keptMotes_row (started phase) keeps, ← has.opened, OpenSheets.contains,
          OpenSheets.get?_insert]
        by_cases same : mote = report.mote
        · simp [same]
        · simp [same, OpenSheets.contains]

-- The sheets that are open belong to the motes whose milestone was passed, each once.
theorem HasSeen.motes (has : recorder.HasSeen plan seen) :
    (recorder.opened.sheets.map Prod.fst).Perm (plan.keptMotes seen) := by
  have ascending := has.booked.ascending
  have distinct : (recorder.opened.sheets.map Prod.fst).Nodup :=
    List.pairwise_map.mpr (ascending.imp fun below => UInt32.ne_of_lt below)
  rw [List.perm_ext_iff_of_nodup distinct (CapturePlan.nodup_keptMotes plan seen)]
  intro mote
  rw [← has.opened, OpenSheets.contains, Option.isSome_iff_exists]
  constructor
  · intro member
    obtain ⟨entry, inside, rfl⟩ := List.mem_map.mp member
    exact ⟨entry.2, (OpenSheets.get?_eq_some_iff ascending entry.1 entry.2).mpr inside⟩
  · rintro ⟨sheet, found⟩
    have inside := (OpenSheets.get?_eq_some_iff ascending mote sheet).mp found
    exact List.mem_map.mpr ⟨(mote, sheet), inside, rfl⟩

-- They are listed when they are closed, with the paths that the plan has for their motes.
theorem HasSeen.closes (has : recorder.HasSeen plan seen) {reason : StopReason} {last : Site}
    (stops : recorder.stop site reason = (.ok (), later, last)) :
    (later.closed.map fun entry => (entry.1, entry.2.path)).Perm
      ((plan.keptMotes seen).map fun mote => (mote, plan.path mote)) := by
  have paths : later.closed.map (fun entry => (entry.1, entry.2.path)) =
      (recorder.opened.sheets.map Prod.fst).map fun mote => (mote, plan.path mote) := by
    rw [has.booked.closes has.running stops, List.map_map, List.map_map]
    refine List.map_congr_left fun entry member => ?_
    have found := (OpenSheets.get?_eq_some_iff has.booked.ascending entry.1 entry.2).mpr member
    exact congrArg (Prod.mk entry.1) (has.booked.sheets entry.1 entry.2 found).2.1
  rw [paths]
  exact has.motes.map _

end HasSeen

end Recorder

end MoteCapture

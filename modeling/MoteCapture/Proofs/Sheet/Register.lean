import Mathlib.Data.Finmap
import MoteCapture.Proofs.Sheet.Open

/-!
The open sheets as a finite map. A register says of each mote which path and header its sheet was
opened with and which rows were written to it since; it knows of the disk only whether a request went
well. Whatever is asked of the open sheets and however it ends, they show what the register says, and
the file of a sheet has this header and these rows in the end.
-/

namespace MoteCapture

open Sheet (page)

def Sheet.label (sheet : Sheet) : String × Nat :=
  (sheet.path, sheet.rows)

namespace OpenSheets

inductive Request where
  | obtain (mote : MoteId) (path header : String)
  | write (mote : MoteId) (row : String)
  | close

def ask (opened : OpenSheets) (site : Site) : Request → Bool × OpenSheets × Site
  | .obtain mote path header =>
      let outcome := opened.obtain mote site (Sheet.create · path header)
      (outcome.1.isOk, outcome.2.2)
  | .write mote row =>
      let outcome := opened.writeRow mote site.disk row
      (outcome.1.isOk, outcome.2.1, { site with disk := outcome.2.2 })
  | .close =>
      let outcome := opened.closeAll site
      (outcome.1.isOk, outcome.2)

/-- Runs of requests, with whether each went well. Before each request `between` tells what may have
become of the site since the last one. -/
inductive Runs (between : Site → Site → Prop) :
    OpenSheets → Site → List (Request × Bool) → OpenSheets → Site → Prop where
  | done (opened : OpenSheets) (site : Site) : Runs between opened site [] opened site
  | ask {opened final : OpenSheets} {site met last : Site} {log : List (Request × Bool)}
      (request : Request) (meanwhile : between site met)
      (rest : Runs between (opened.ask met request).2.1 (opened.ask met request).2.2 log final last) :
      Runs between opened site ((request, (opened.ask met request).1) :: log) final last

structure Record where
  path : String
  header : String
  rows : List String
  deriving DecidableEq

namespace Record

def label (record : Record) : String × Nat :=
  (record.path, record.rows.length)

def lines (record : Record) : List String :=
  record.header :: record.rows

end Record

abbrev Register := Finmap fun _ : MoteId => Record

namespace Register

def after (register : Register) : Request × Bool → Register
  | (.close, _) => ∅
  | (_, false) => register
  | (.obtain mote path header, true) =>
      match register.lookup mote with
      | none => register.insert mote ⟨path, header, []⟩
      | some _ => register
  | (.write mote row, true) =>
      match register.lookup mote with
      | none => register
      | some record => register.insert mote { record with rows := record.rows ++ [row] }

def ofLog (log : List (Request × Bool)) : Register :=
  log.foldl after ∅

end Register

variable {opened : OpenSheets} {register : Register} {site : Site} {mote : MoteId}
  {request : Request} {path header row : String}

inductive Asked (opened : OpenSheets) (site : Site) : Request → Bool × OpenSheets × Disk → Prop where
  | there {mote : MoteId} {path header : String} {sheet : Sheet}
      (found : opened.get? mote = some sheet) :
      Asked opened site (.obtain mote path header) (true, opened, site.disk)
  | made {mote : MoteId} {path header : String} {sheet : Sheet} {left : Site}
      (missing : opened.get? mote = none)
      (created : Sheet.create site path header = (.ok sheet, left)) :
      Asked opened site (.obtain mote path header) (true, opened.insert mote sheet, left.disk)
  | notMade {mote : MoteId} {path header : String} {e : IoError} {left : Site}
      (missing : opened.get? mote = none)
      (failed : Sheet.create site path header = (.error e, left)) :
      Asked opened site (.obtain mote path header) (false, opened, left.disk)
  | unknown {mote : MoteId} {row : String} (missing : opened.get? mote = none) :
      Asked opened site (.write mote row) (false, opened, site.disk)
  | written {mote : MoteId} {row : String} {sheet next : Sheet} {disk : Disk}
      (found : opened.get? mote = some sheet)
      (wrote : sheet.writeRow site.disk row = (.ok (), next, disk)) :
      Asked opened site (.write mote row) (true, opened.insert mote next, disk)
  | refused {mote : MoteId} {row : String} {sheet next : Sheet} {e : IoError} {disk : Disk}
      (found : opened.get? mote = some sheet)
      (failed : sheet.writeRow site.disk row = (.error e, next, disk)) :
      Asked opened site (.write mote row) (false, opened.insert mote next, disk)
  | closed (well : Bool) :
      Asked opened site .close (well, .empty, (closeEach site opened.sheets).2.disk)

theorem ask_asked (opened : OpenSheets) (site : Site) (request : Request) :
    opened.Asked site request ((opened.ask site request).1, (opened.ask site request).2.1,
      (opened.ask site request).2.2.disk) := by
  cases request with
  | obtain mote path header =>
      rcases outcome : opened.obtain mote site (Sheet.create · path header)
        with ⟨e | sheet, isNew, after, left⟩
      · obtain ⟨missing, failed, same⟩ := obtain_error outcome
        simp only [ask, outcome, same]
        exact .notMade missing failed
      · simp only [ask, outcome]
        rcases obtain_ok outcome with ⟨_, found, same, stays⟩ | ⟨_, missing, created, put⟩
        · rw [same, stays]
          exact .there found
        · rw [put]
          exact .made missing created
  | write mote row =>
      cases found : opened.get? mote with
      | none =>
          simp only [ask, writeRow, found]
          exact .unknown found
      | some sheet =>
          rcases outcome : sheet.writeRow site.disk row with ⟨e | ⟨⟩, next, disk⟩
          · simp only [ask, writeRow, found, outcome]
            exact .refused found outcome
          · simp only [ask, writeRow, found, outcome]
            exact .written found outcome
  | close => exact .closed _

/-! The sheets show what the register says. -/

structure Shows (opened : OpenSheets) (register : Register) : Prop where
  ascending : opened.Ascending
  labels : ∀ mote, (opened.get? mote).map Sheet.label = (register.lookup mote).map Record.label

theorem shows_empty : empty.Shows ∅ where
  ascending := ascending_empty
  labels mote := by rw [Finmap.lookup_empty]; rfl

theorem Shows.insert (shows : opened.Shows register) {sheet : Sheet} {record : Record}
    (same : sheet.label = record.label) :
    (opened.insert mote sheet).Shows (register.insert mote record) where
  ascending := ascending_insert mote sheet shows.ascending
  labels other := by
    rw [get?_insert]
    by_cases own : other = mote
    · rw [own, if_pos rfl, Finmap.lookup_insert, Option.map_some, Option.map_some, same]
    · rw [if_neg own, Finmap.lookup_insert_of_ne _ own]
      exact shows.labels other

-- A mote with a sheet has a record, and the other way round.
theorem Shows.record (shows : opened.Shows register) {sheet : Sheet}
    (found : opened.get? mote = some sheet) :
    ∃ record, register.lookup mote = some record ∧ record.label = sheet.label := by
  have labels := shows.labels mote
  rw [found, Option.map_some] at labels
  exact Option.map_eq_some_iff.mp labels.symm

theorem Shows.missing (shows : opened.Shows register) (missing : opened.get? mote = none) :
    register.lookup mote = none := by
  have labels := shows.labels mote
  rw [missing, Option.map_none] at labels
  exact Option.map_eq_none_iff.mp labels.symm

theorem Shows.mem_iff (shows : opened.Shows register) (mote : MoteId) :
    opened.contains mote = true ↔ mote ∈ register := by
  have labels := congrArg Option.isSome (shows.labels mote)
  rw [Option.isSome_map, Option.isSome_map] at labels
  rw [contains, labels, Finmap.lookup_isSome]

theorem Shows.size_eq (shows : opened.Shows register) : opened.size = register.keys.card := by
  have distinct : (opened.sheets.map Prod.fst).Nodup :=
    List.pairwise_map.mpr (shows.ascending.imp UInt32.ne_of_lt)
  have members : (opened.sheets.map Prod.fst).toFinset = register.keys := by
    ext mote
    rw [List.mem_toFinset, Finmap.mem_keys, ← shows.mem_iff, contains, Option.isSome_iff_exists]
    simp only [get?_eq_some_iff shows.ascending, List.mem_map, Prod.exists, exists_and_right,
      exists_eq_right]
  rw [size, ← members, List.toFinset_card_of_nodup distinct, List.length_map]

theorem Shows.isEmpty_iff (shows : opened.Shows register) :
    opened.isEmpty = true ↔ register = ∅ := by
  rw [OpenSheets.isEmpty_iff]
  constructor
  · rintro rfl
    exact Finmap.ext_lookup fun mote => shows.missing rfl
  · rintro rfl
    have none : opened.sheets.length = 0 := by simpa [size] using shows.size_eq
    exact congrArg OpenSheets.mk (List.length_eq_zero_iff.mp none)

-- A sheet that takes the place of another one of its mote may have the same label.
theorem Shows.replaced (shows : opened.Shows register) {sheet next : Sheet}
    (found : opened.get? mote = some sheet) (same : next.label = sheet.label) :
    (opened.insert mote next).Shows register where
  ascending := ascending_insert mote next shows.ascending
  labels other := by
    rw [get?_insert, ← shows.labels other]
    by_cases own : other = mote
    · rw [own, if_pos rfl, found, Option.map_some, Option.map_some, same]
    · rw [if_neg own]

theorem after_there (shows : opened.Shows register) {sheet : Sheet}
    (found : opened.get? mote = some sheet) :
    register.after (.obtain mote path header, true) = register := by
  obtain ⟨record, known, _⟩ := shows.record found
  simp only [Register.after, known]

theorem after_made (shows : opened.Shows register) (missing : opened.get? mote = none) :
    register.after (.obtain mote path header, true) =
      register.insert mote ⟨path, header, []⟩ := by
  simp only [Register.after, shows.missing missing]

theorem after_written {record : Record} (known : register.lookup mote = some record) :
    register.after (.write mote row, true) =
      register.insert mote { record with rows := record.rows ++ [row] } := by
  simp only [Register.after, known]

theorem Shows.after {outcome : Bool × OpenSheets × Disk} (shows : opened.Shows register)
    (asked : opened.Asked site request outcome) :
    outcome.2.1.Shows (register.after (request, outcome.1)) := by
  cases asked with
  | there found =>
      rw [after_there shows found]
      exact shows
  | made missing created =>
      obtain ⟨path, _, rows, _⟩ := Sheet.create_ok created
      rw [after_made shows missing]
      exact shows.insert (Prod.ext path rows)
  | notMade _ _ => exact shows
  | unknown _ => exact shows
  | @written mote row sheet next disk found wrote =>
      obtain ⟨record, known, same⟩ := shows.record found
      have path := (sheet.writeRow_appended site.disk row).path
      rw [wrote] at path
      rw [after_written known]
      refine shows.insert (Prod.ext ?_ ?_)
      · exact path.trans (congrArg Prod.fst same).symm
      · have count : record.rows.length = sheet.rows := congrArg Prod.snd same
        rw [Record.label, List.length_append, List.length_singleton, count]
        exact Sheet.rows_writeRow wrote
  | @refused mote row sheet next e disk found failed =>
      have path := (sheet.writeRow_appended site.disk row).path
      rw [failed] at path
      exact shows.replaced found (Prod.ext path (Sheet.rows_writeRow_error failed))
  | closed _ => exact shows_empty

/-! The sheets hold what the register says. -/

def Alone (opened : OpenSheets) (mote : MoteId) (place : Place) : Prop :=
  ∀ other sheet, opened.get? other = some sheet → sheet.place = place → other = mote

/-- The sheet at a place carries the lines that the register has for it, if it is the only one. -/
def Filed (register : Register) (opened : OpenSheets) (disk : Disk) (place : Place) : Prop :=
  ∀ mote sheet record, opened.get? mote = some sheet → register.lookup mote = some record →
    sheet.place = place → opened.Alone mote place → sheet.Carries disk (page record.lines)

variable {place : Place} {disk newer : Disk}

theorem Filed.changed {own : Place → Prop} (filed : Filed register opened disk place)
    (changed : disk.Changed own newer) (foreign : ¬ own place) :
    Filed register opened newer place := by
  intro mote sheet record found known here alone
  exact (filed mote sheet record found known here alone).changed changed (here ▸ foreign)

theorem Filed.waits (filed : Filed register opened disk place)
    (same : newer.node? place = disk.node? place) : Filed register opened newer place := by
  intro mote sheet record found known here alone
  exact (filed mote sheet record found known here alone).met (here ▸ same)

-- A sheet is put in for one mote. If it was alone at its place with another one, it is so no more,
-- and then nothing is said about either.
theorem Filed.put {later : Register} {next : Sheet} {record : Record}
    (filed : Filed register opened disk place)
    (known : later.lookup mote = some record)
    (others : ∀ other, other ≠ mote → later.lookup other = register.lookup other)
    (stays : ∀ old, opened.get? mote = some old → next.place = old.place)
    (changed : disk.Changed (· = next.place) newer)
    (own : next.place = place → (opened.insert mote next).Alone mote place →
      next.Carries newer (page record.lines)) :
    Filed later (opened.insert mote next) newer place := by
  intro other sheet record' found known' here alone
  rw [get?_insert] at found
  by_cases same : other = mote
  · rw [if_pos same] at found
    cases found
    rw [same, known] at known'
    cases known'
    exact own here (same ▸ alone)
  · rw [if_neg same] at found
    rw [others other same] at known'
    have different : sheet.place ≠ next.place := by
      intro meets
      have put : (opened.insert mote next).get? mote = some next := by
        rw [get?_insert, if_pos rfl]
      exact same (alone mote next put (meets.symm.trans here)).symm
    refine (filed other sheet record' found known' here ?_).changed changed different
    intro third another found' here'
    by_cases first : third = mote
    · refine alone third next ?_ ?_
      · rw [get?_insert, if_pos first]
      · rw [stays another (first ▸ found'), here']
    · apply alone third another _ here'
      rw [get?_insert, if_neg first]
      exact found'

-- The sheets of the other motes are as they were, so it was alone before.
theorem Alone.of_insert {next : Sheet} (alone : (opened.insert mote next).Alone mote place) :
    opened.Alone mote place := by
  intro other another found here
  by_cases own : other = mote
  · exact own
  · apply alone other another _ here
    rw [get?_insert, if_neg own]
    exact found

theorem Filed.made {sheet : Sheet} {left : Site} (filed : Filed register opened site.disk place)
    (missing : opened.get? mote = none)
    (created : Sheet.create site path header = (.ok sheet, left)) :
    Filed (register.insert mote ⟨path, header, []⟩) (opened.insert mote sheet) left.disk place := by
  have opening := Sheet.changed_create site path header
  rw [created, ← (Sheet.create_ok created).2.1] at opening
  refine filed.put (Finmap.lookup_insert register) ?_ ?_ opening ?_
  · intro other different
    exact Finmap.lookup_insert_of_ne register different
  · intro old found
    rw [missing] at found
    cases found
  · intro _ _
    exact .ofCreate created

-- Whether or not a row goes through, its sheet stays where it is and no other file is touched.
theorem Filed.rowPut {later : Register} {sheet next : Sheet} {result : Except IoError Unit}
    {before record : Record} (filed : Filed register opened site.disk place)
    (found : opened.get? mote = some sheet)
    (outcome : sheet.writeRow site.disk row = (result, next, disk))
    (knew : register.lookup mote = some before) (known : later.lookup mote = some record)
    (others : ∀ other, other ≠ mote → later.lookup other = register.lookup other)
    (carries : sheet.Carries site.disk (page before.lines) →
      next.Carries disk (page record.lines)) :
    Filed later (opened.insert mote next) disk place := by
  have appended := sheet.writeRow_appended site.disk row
  rw [outcome] at appended
  have writing : site.disk.Changed (· = next.place) disk := appended.place ▸ appended.changed
  refine filed.put known others ?_ writing ?_
  · intro old found'
    rw [found] at found'
    cases found'
    exact appended.place
  · intro here alone
    apply carries
    exact filed mote sheet before found knew (appended.place.symm.trans here) alone.of_insert

-- Whatever a request comes to, it rewrites no file but that of its own sheet.
theorem Filed.after {outcome : Bool × OpenSheets × Disk} (filed : Filed register opened site.disk place)
    (shows : opened.Shows register) (asked : opened.Asked site request outcome) :
    Filed (register.after (request, outcome.1)) outcome.2.1 outcome.2.2 place := by
  cases asked with
  | there found =>
      rw [after_there shows found]
      exact filed
  | made missing created =>
      rw [after_made shows missing]
      exact filed.made missing created
  | notMade missing failed => exact filed.changed (Sheet.changed_create_error failed) id
  | unknown _ => exact filed
  | written found wrote =>
      obtain ⟨record, known, _⟩ := shows.record found
      rw [after_written known]
      apply filed.rowPut found wrote known (Finmap.lookup_insert register)
      · intro other different
        exact Finmap.lookup_insert_of_ne register different
      · intro carries
        have more := carries.writeRow_ok wrote
        rwa [← Sheet.page_append] at more
  | refused found failed =>
      obtain ⟨record, known, _⟩ := shows.record found
      apply filed.rowPut found failed known known (fun _ _ => rfl)
      intro carries
      exact carries.writeRow_error failed
  | closed _ =>
      intro mote sheet record found
      cases found

/-! Runs. -/

/-- Nobody else touches the file at a place, or moves the working directory. -/
def Spares (between : Site → Site → Prop) (place : Place) : Prop :=
  ∀ site met, between site met →
    met.disk.here = site.disk.here ∧ met.disk.node? place = site.disk.node? place

section Runs

variable {between : Site → Site → Prop} {final : OpenSheets} {last : Site}
  {log : List (Request × Bool)}

theorem Runs.shows (run : Runs between opened site log final last) (shows : opened.Shows register) :
    final.Shows (log.foldl Register.after register) := by
  induction run generalizing register with
  | done => exact shows
  | ask request _ _ ih => exact ih (shows.after (ask_asked _ _ request))

theorem Runs.filed (run : Runs between opened site log final last) (spares : Spares between place)
    (shows : opened.Shows register) (filed : Filed register opened site.disk place) :
    Filed (log.foldl Register.after register) final last.disk place := by
  induction run generalizing register with
  | done => exact filed
  | @ask opened _ site met _ _ request meanwhile _ ih =>
      have waited := filed.waits (spares site met meanwhile).2
      have asked := ask_asked opened met request
      exact ih (shows.after asked) (waited.after shows asked)

structure Left (here place : Place) (bytes : Text.Bytes) (opened : OpenSheets) (disk : Disk) :
    Prop where
  stands : disk.here = here
  closed : ¬ Places opened.sheets place
  isFile : disk.node? place = some (.file bytes)

variable {here : Place} {bytes : Text.Bytes}

theorem Left.changed {own : Place → Prop} {later : OpenSheets} (left : Left here place bytes opened disk)
    (changed : disk.Changed own newer) (foreign : ¬ own place)
    (closed : ¬ Places later.sheets place) : Left here place bytes later newer where
  stands := changed.here.trans left.stands
  closed := closed
  isFile := changed.other foreign left.isFile

theorem Left.put {next : Sheet} (left : Left here place bytes opened disk)
    (changed : disk.Changed (· = next.place) newer) (elsewhere : next.place ≠ place) :
    Left here place bytes (opened.insert mote next) newer := by
  refine left.changed changed elsewhere.symm fun own => ?_
  rcases places_insert own with same | old
  · exact elsewhere same
  · exact left.closed old

-- As long as nobody asks for a sheet at its place, the file stays as it is.
theorem Left.after {outcome : Bool × OpenSheets × Disk} (left : Left here place bytes opened site.disk)
    (asked : opened.Asked site request outcome)
    (elsewhere : ∀ mote path header, (request, outcome.1) = (.obtain mote path header, true) →
      (Path.ofString path).place here ≠ place) :
    Left here place bytes outcome.2.1 outcome.2.2 := by
  have apart : ∀ mote sheet, opened.get? mote = some sheet → sheet.place ≠ place :=
    fun mote sheet found same => left.closed (same ▸ places_of_get? found)
  cases asked with
  | there _ => exact left
  | @made mote path header sheet later missing created =>
      have opening := Sheet.changed_create site path header
      have own := (Sheet.create_ok created).2.1
      rw [created, ← own] at opening
      apply left.put opening
      rw [own, left.stands]
      exact elsewhere mote path header rfl
  | notMade _ failed => exact left.changed (Sheet.changed_create_error failed) id left.closed
  | unknown _ => exact left
  | @written mote row sheet next disk found wrote =>
      have appended := sheet.writeRow_appended site.disk row
      rw [wrote] at appended
      exact left.put (appended.place ▸ appended.changed) (appended.place ▸ apart mote sheet found)
  | @refused mote row sheet next e disk found failed =>
      have appended := sheet.writeRow_appended site.disk row
      rw [failed] at appended
      exact left.put (appended.place ▸ appended.changed) (appended.place ▸ apart mote sheet found)
  | closed _ =>
      refine left.changed (changed_closeEach site opened.sheets) left.closed ?_
      rintro ⟨entry, member, _⟩
      cases member

theorem Runs.left (run : Runs between opened site log final last) (spares : Spares between place)
    (left : Left here place bytes opened site.disk)
    (elsewhere : ∀ mote path header, (.obtain mote path header, true) ∈ log →
      (Path.ofString path).place here ≠ place) :
    Left here place bytes final last.disk := by
  induction run with
  | done => exact left
  | @ask opened _ site met _ _ request meanwhile _ ih =>
      obtain ⟨stands, same⟩ := spares site met meanwhile
      have waited : Left here place bytes opened met.disk :=
        ⟨stands.trans left.stands, left.closed, same.trans left.isFile⟩
      apply ih
      · apply waited.after (ask_asked opened met request)
        intro mote path header own
        exact elsewhere mote path header (own ▸ List.mem_cons_self)
      · intro mote path header member
        exact elsewhere mote path header (List.mem_cons_of_mem _ member)

-- Sheets that are open at different places are alone there.
theorem Shows.alone (shows : opened.Shows register) (apart : Apart opened.sheets) {sheet : Sheet}
    (found : opened.get? mote = some sheet) : opened.Alone mote sheet.place := by
  intro other another found' here
  rw [get?_eq_some_iff shows.ascending] at found found'
  by_contra different
  have ne : (other, another) ≠ (mote, sheet) := fun same => different (congrArg Prod.fst same)
  have : Std.Symm fun entry later : MoteId × Sheet => entry.2.place ≠ later.2.place :=
    ⟨fun _ _ => Ne.symm⟩
  exact List.Pairwise.forall apart found' found ne here

-- Closing all sheets leaves in the file that one of them has for itself what the register says.
theorem Filed.leaves (filed : Filed register opened site.disk place) (shows : opened.Shows register)
    (alone : opened.Alone mote place) {sheet : Sheet} {record : Record}
    (found : opened.get? mote = some sheet) (known : register.lookup mote = some record)
    (here : sheet.place = place) (file : sheet.OnFile site.disk) :
    (closeEach site opened.sheets).2.disk.node? place = some (.file (page record.lines)) := by
  have carries := filed mote sheet record found known here alone
  have member := (get?_eq_some_iff shows.ascending mote sheet).mp found
  obtain ⟨before, behind, whole⟩ := List.append_of_mem member
  obtain ⟨below, above⟩ := shows.ascending.split whole
  have elsewhere : ¬ Places (before ++ behind) sheet.place := by
    rintro ⟨other, among, same⟩
    have inside : other ∈ opened.sheets := by
      rw [whole]
      rcases List.mem_append.mp among with earlier | later
      · exact List.mem_append_left _ earlier
      · exact List.mem_append_right _ (List.mem_cons_of_mem _ later)
    have found' := (get?_eq_some_iff shows.ascending other.1 other.2).mpr inside
    have own := alone other.1 other.2 found' (same.trans here)
    rcases List.mem_append.mp among with earlier | later
    · exact UInt32.ne_of_lt (below other earlier) own
    · exact UInt32.ne_of_lt (above other later) own.symm
  rw [whole, ← here]
  exact closeEach_writes elsewhere (Sheet.page_cons_ne_nil _ _) (carries.held file) file

-- Closing all sheets leaves in the file of each what the register says.
theorem Filed.closes (filed : Filed register opened site.disk place) (shows : opened.Shows register)
    (apart : Apart opened.sheets) {sheet : Sheet} {record : Record}
    (found : opened.get? mote = some sheet) (known : register.lookup mote = some record)
    (here : sheet.place = place) (file : sheet.OnFile site.disk) :
    (closeEach site opened.sheets).2.disk.node? place = some (.file (page record.lines)) :=
  filed.leaves shows (here ▸ shows.alone apart found) found known here file

-- A mote that has a sheet keeps it, and nothing is created for it.
theorem Shows.known (shows : opened.Shows register) (member : mote ∈ register) (met : Site)
    (path header : String) :
    ∃ sheet, opened.get? mote = some sheet ∧
      opened.obtain mote met (Sheet.create · path header) = (.ok sheet, false, opened, met) := by
  obtain ⟨sheet, found⟩ := Option.isSome_iff_exists.mp ((shows.mem_iff mote).mpr member)
  exact ⟨sheet, found, by simp only [obtain, found]⟩

theorem Shows.unknown (shows : opened.Shows register) (absent : mote ∉ register) (met : Site)
    (path header : String) :
    (opened.ask met (.obtain mote path header)).1 = (Sheet.create met path header).1.isOk ∧
      (opened.ask met (.obtain mote path header)).2.2 = (Sheet.create met path header).2 := by
  have missing : opened.get? mote = none := by
    rw [← Option.not_isSome_iff_eq_none]
    exact fun found => absent ((shows.mem_iff mote).mp found)
  simp only [ask, obtain, missing]
  rcases Sheet.create met path header with ⟨e | sheet, left⟩
  · exact ⟨rfl, rfl⟩
  · exact ⟨rfl, rfl⟩

theorem Runs.closes {start met : Site} {sheet : Sheet} {record : Record}
    (run : Runs between empty start log opened site) (found : opened.get? mote = some sheet)
    (known : (Register.ofLog log).lookup mote = some record) (apart : Apart opened.sheets)
    (file : sheet.OnFile site.disk) (spares : Spares between sheet.place)
    (meanwhile : between site met) :
    (closeEach met opened.sheets).2.disk.node? sheet.place = some (.file (page record.lines)) := by
  have filed : Filed (Register.ofLog log) opened site.disk sheet.place :=
    run.filed spares shows_empty fun _ _ _ found => by cases found
  have same := (spares site met meanwhile).2
  obtain ⟨bytes, isFile⟩ := file
  exact (filed.waits same).closes (run.shows shows_empty) apart found known rfl
    ⟨bytes, same.trans isFile⟩

-- Once its sheet is closed a file is left alone until a sheet is obtained at its place again.
theorem Runs.stays {well : Bool} {bytes : Text.Bytes}
    (run : Runs between opened site ((.close, well) :: log) final last)
    (spares : Spares between place)
    (closes : ∀ met, between site met →
      (closeEach met opened.sheets).2.disk.node? place = some (.file bytes))
    (elsewhere : ∀ other path header, (.obtain other path header, true) ∈ log →
      (Path.ofString path).place site.disk.here ≠ place) :
    last.disk.node? place = some (.file bytes) := by
  cases run with
  | @ask _ _ _ met _ _ _ meanwhile rest =>
    have stands : (closeEach met opened.sheets).2.disk.here = site.disk.here :=
      (changed_closeEach met opened.sheets).here.trans (spares site met meanwhile).1
    have closed : ¬ Places empty.sheets place := by
      rintro ⟨entry, member, _⟩
      cases member
    exact (rest.left spares ⟨stands, closed, closes met meanwhile⟩ elsewhere).isFile

/-- Whatever is asked of the open sheets and whatever fails on the way, they behave like a map from
motes to paths and numbers of rows. A mote gets a record exactly when a sheet can be created for it; a
mote that has one keeps its sheet with its first path, and nothing is created. If the sheets are open
at different places and nobody else touches the file of one of them, then this file holds the header
and the rows of its mote when the sheets are closed or given up, and as long after that as no sheet is
obtained at its place again. -/
theorem open_sheets_are_a_map {start : Site} (run : Runs between empty start log opened site) :
    let register := Register.ofLog log
    (∀ mote, (opened.get? mote).map Sheet.label = (register.lookup mote).map Record.label) ∧
    (∀ mote, opened.contains mote = true ↔ mote ∈ register) ∧
    opened.size = register.keys.card ∧
    (opened.isEmpty = true ↔ register = ∅) ∧
    (∀ met mote path header,
      (mote ∈ register → ∃ sheet, opened.get? mote = some sheet ∧
        opened.obtain mote met (Sheet.create · path header) = (.ok sheet, false, opened, met)) ∧
      (mote ∉ register →
        (opened.ask met (.obtain mote path header)).1 =
            (Sheet.create met path header).1.isOk ∧
          (opened.ask met (.obtain mote path header)).2.2 = (Sheet.create met path header).2)) ∧
    ∀ mote sheet record, opened.get? mote = some sheet → register.lookup mote = some record →
      Apart opened.sheets → sheet.OnFile site.disk → Spares between sheet.place →
        (∀ met, between site met →
          (opened.abandon met.disk).node? sheet.place = some (.file (page record.lines))) ∧
        ∀ well later final last, Runs between opened site ((.close, well) :: later) final last →
          (∀ other path header, (.obtain other path header, true) ∈ later →
            (Path.ofString path).place site.disk.here ≠ sheet.place) →
          last.disk.node? sheet.place = some (.file (page record.lines)) := by
  intro register
  have shows : opened.Shows register := run.shows shows_empty
  refine ⟨shows.labels, shows.mem_iff, shows.size_eq, shows.isEmpty_iff, ?_, ?_⟩
  · intro met mote path header
    constructor
    · intro member
      exact shows.known member met path header
    · intro absent
      exact shows.unknown absent met path header
  · intro mote sheet record found known apart file spares
    have closes : ∀ met, between site met →
        (closeEach met opened.sheets).2.disk.node? sheet.place =
          some (.file (page record.lines)) :=
      fun met meanwhile => run.closes found known apart file spares meanwhile
    constructor
    · intro met meanwhile
      rw [abandon_disk]
      exact closes met meanwhile
    · intro well later final last goesOn elsewhere
      exact goesOn.stays spares closes elsewhere

theorem first_path_is_kept :
    let made := empty.ask ⟨.blank, .empty⟩ (.obtain 1 "a" "h")
    let again := made.2.1.ask made.2.2 (.obtain 1 "b" "k")
    let wrote := again.2.1.ask again.2.2 (.write 1 "5,7")
    let unknown := wrote.2.1.ask wrote.2.2 (.write 2 "9")
    let closed := unknown.2.1.ask unknown.2.2 .close
    let later := closed.2.1.ask closed.2.2 (.obtain 1 "c" "h")
    ∃ sheet, unknown.2.1.get? 1 = some sheet ∧ sheet.label = ("a", 1) ∧
      again.2.2.disk.node? ["work", "run", "b"] = none ∧
      later.2.2.disk.node? sheet.place = some (.file (page ["h", "5,7"])) := by
  intro made again wrote unknown closed later
  have run : Runs Eq empty ⟨.blank, .empty⟩ _ unknown.2.1 unknown.2.2 :=
    .ask _ rfl (.ask _ rfl (.ask _ rfl (.ask _ rfl (.done _ _))))
  have reopens : Runs Eq closed.2.1 closed.2.2 _ later.2.1 later.2.2 :=
    .ask (.obtain 1 "c" "h") rfl (.done _ _)
  have goesOn : Runs Eq unknown.2.1 unknown.2.2 _ later.2.1 later.2.2 := .ask .close rfl reopens
  obtain ⟨labels, _, _, _, _, keeps⟩ := open_sheets_are_a_map run
  have shown : (unknown.2.1.get? 1).map Sheet.label = some ("a", 1) :=
    (labels 1).trans (by decide +kernel)
  obtain ⟨sheet, found, label⟩ := Option.map_eq_some_iff.mp shown
  have place : sheet.place = ["work", "run", "a"] := by
    have all : (unknown.2.1.get? 1).map Sheet.place = some ["work", "run", "a"] := by decide +kernel
    simpa [found] using all
  have apart : Apart unknown.2.1.sheets := by decide +kernel
  have file : sheet.OnFile unknown.2.2.disk := ⟨[], by rw [place]; decide +kernel⟩
  have spares : Spares Eq sheet.place := by
    rintro site _ rfl
    exact ⟨rfl, rfl⟩
  obtain ⟨_, stays⟩ := keeps 1 sheet ⟨"a", "h", ["5,7"]⟩ found (by decide +kernel) apart file spares
  have untouched : again.2.2.disk.node? ["work", "run", "b"] = none := by decide +kernel
  have elsewhere : ∀ other path header,
      (Request.obtain other path header, true) ∈ [(Request.obtain 1 "c" "h", later.1)] →
        (Path.ofString path).place unknown.2.2.disk.here ≠ sheet.place := by
    intro other path header member
    simp only [List.mem_singleton, Prod.mk.injEq, Request.obtain.injEq] at member
    obtain ⟨⟨_, rfl, _⟩, _⟩ := member
    rw [place]
    decide +kernel
  exact ⟨sheet, found, label, untouched, stays _ _ _ _ goesOn elsewhere⟩

end Runs

end OpenSheets

end MoteCapture

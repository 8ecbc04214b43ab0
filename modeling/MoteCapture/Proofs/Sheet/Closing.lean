import MoteCapture.Proofs.Sheet.Register

/-!
Closing all sheets when some of them cannot be flushed. Which ones these are is settled before the first
is closed: closing a sheet changes what is in its file, but not where the files are. So every sheet is
closed and noted in its turn, and the first failure in the order of the motes is told.

Disks with the same files may differ in their folders, as they do after a sheet that could not be made. An
open sheet sees nothing of the folders, so whatever is written to it and whatever closes it comes to the
same on both, and leaves the same files.
-/

namespace MoteCapture

open Sheet (page)

namespace Sheet

def closingEntry (sheet : Sheet) (disk : Disk) : Entry :=
  match (sheet.flush disk).1 with
  | .ok () =>
      .line .debug ("Closed CSV sink " ++ sheet.path ++ " (" ++ toString sheet.rows ++ " rows)")
  | .error e => .line .warn ("Failed to flush CSV sink " ++ sheet.path ++ ": " ++ e.message)

variable {sheet : Sheet} {disk after : Disk}

theorem close_eq (sheet : Sheet) (disk : Disk) :
    sheet.close disk = ((sheet.flush disk).1.map fun _ => ⟨sheet.path, sheet.rows⟩,
      (sheet.flush disk).2.2) := by
  unfold close
  rcases sheet.flush disk with ⟨e | ⟨⟩, next, after⟩
  · rfl
  · rfl

theorem onFile_flush (sheet other : Sheet) (disk : Disk) :
    sheet.OnFile (other.flush disk).2.2 ↔ sheet.OnFile disk := by
  unfold flush
  split
  · rfl
  · rcases outcome : other.writeThrough disk other.pending with ⟨e | ⟨⟩, next, after⟩
    · rw [(writeThrough_error outcome).2.1]
    · exact Disk.isFile_write (writeThrough_ok outcome).2 sheet.place

-- Whether a sheet can be flushed hangs on there being a file at its place.
theorem flush_alike (same : sheet.OnFile disk ↔ sheet.OnFile after) :
    (sheet.flush disk).1 = (sheet.flush after).1 := by
  have refused : ∀ {disk : Disk}, ¬ sheet.OnFile disk →
      disk.write sheet.place sheet.offset sheet.pending = .error .storageFull := by
    intro disk noFile
    unfold Disk.write
    split
    · next bytes isFile => exact absurd ⟨bytes, isFile⟩ noFile
    · rfl
  by_cases file : sheet.OnFile disk
  · rw [(flush_appended sheet disk).succeeds file,
      (flush_appended sheet after).succeeds (same.mp file)]
  · have noFile : ¬ sheet.OnFile after := fun found => file (same.mpr found)
    unfold flush writeThrough
    split
    · rfl
    · rw [refused file, refused noFile]

-- A clogged sheet cannot be flushed.
theorem Carries.onFile {text : Text.Bytes} (carries : sheet.Carries disk text)
    (well : (sheet.flush disk).1 = .ok ()) : sheet.OnFile disk := by
  rcases carries with ⟨file, _⟩ | clogged
  · exact file
  · have emptied := flush_empties (Prod.ext well rfl)
    exact absurd emptied ((flush_appended sheet disk).clogged clogged).2

end Sheet

namespace OpenSheets

variable {opened : OpenSheets} {register : Register} {site met : Site}
  {sheets before behind : List (MoteId × Sheet)} {entry : MoteId × Sheet}

theorem closeOne_journal (sheet : Sheet) (site : Site) :
    (closeOne sheet site).2.journal = site.journal.note (sheet.closingEntry site.disk) := by
  unfold closeOne Sheet.closingEntry
  rw [Sheet.close_eq]
  rcases (sheet.flush site.disk).1 with e | ⟨⟩
  · rfl
  · rfl

-- The closing of one sheet settles nothing about the flushing of another one.
theorem flush_closeOne (sheet other : Sheet) (site : Site) :
    (sheet.flush (closeOne other site).2.disk).1 = (sheet.flush site.disk).1 := by
  apply Sheet.flush_alike
  rw [(closeOne_eq other site).2, Sheet.close_eq]
  exact Sheet.onFile_flush sheet other site.disk

-- Each sheet is closed once, in its turn.
theorem closeEach_journal (site : Site) (sheets : List (MoteId × Sheet)) :
    (closeEach site sheets).2.journal.toList =
      site.journal.toList ++ sheets.map fun entry => entry.2.closingEntry site.disk := by
  induction sheets generalizing site with
  | nil => exact (List.append_nil _).symm
  | cons first rest ih =>
      have others : (fun entry : MoteId × Sheet =>
          entry.2.closingEntry (closeOne first.2 site).2.disk) =
            fun entry => entry.2.closingEntry site.disk := by
        funext entry
        rw [Sheet.closingEntry, flush_closeOne]
        rfl
      rw [closeEach_disk, ih, closeOne_journal, Journal.toList_note, others]
      simp

theorem closeOne_answer (sheet : Sheet) (site : Site) :
    (closeOne sheet site).1 = (sheet.flush site.disk).1.map fun _ => ⟨sheet.path, sheet.rows⟩ := by
  rw [(closeOne_eq sheet site).1, Sheet.close_eq]

-- The first sheet that cannot be flushed is the one that is told of, whatever comes behind it.
theorem closeEach_error {e : IoError}
    (well : ∀ earlier ∈ before, (earlier.2.flush site.disk).1 = .ok ())
    (failed : (entry.2.flush site.disk).1 = .error e) :
    (closeEach site (before ++ entry :: behind)).1 = .error e := by
  induction before generalizing site with
  | nil =>
      rw [List.nil_append, closeEach, closeOne_answer, failed]
      rfl
  | cons first rest ih =>
      have others := @ih (closeOne first.2 site).2 ?_ ?_
      · rw [List.cons_append, closeEach, closeOne_answer, well first List.mem_cons_self, others]
        rfl
      · intro earlier member
        rw [flush_closeOne]
        exact well earlier (List.mem_cons_of_mem first member)
      · rw [flush_closeOne]
        exact failed

theorem closeEach_well (well : ∀ entry ∈ sheets, (entry.2.flush site.disk).1 = .ok ()) :
    (closeEach site sheets).1 =
      .ok (sheets.map fun entry => (entry.1, ⟨entry.2.path, entry.2.rows⟩)) := by
  induction sheets generalizing site with
  | nil => rfl
  | cons first rest ih =>
      have others := @ih (closeOne first.2 site).2 ?_
      · rw [closeEach, closeOne_answer, well first List.mem_cons_self, others]
        rfl
      · intro entry member
        rw [flush_closeOne]
        exact well entry (List.mem_cons_of_mem first member)

variable {between : Site → Site → Prop} {start : Site} {log : List (Request × Bool)}

theorem Runs.leaves {mote : MoteId} {sheet : Sheet} {record : Record}
    (run : Runs between empty start log opened site) (meanwhile : between site met)
    (found : opened.get? mote = some sheet)
    (known : (Register.ofLog log).lookup mote = some record)
    (well : (sheet.flush met.disk).1 = .ok ()) (alone : opened.Alone mote sheet.place)
    (spares : Spares between sheet.place) :
    (closeEach met opened.sheets).2.disk.node? sheet.place = some (.file (page record.lines)) := by
  have filed : Filed (Register.ofLog log) opened site.disk sheet.place :=
    run.filed spares shows_empty fun _ _ _ found => by cases found
  have waited := filed.waits (spares site met meanwhile).2
  have file := (waited mote sheet record found known rfl alone).onFile well
  exact waited.leaves (run.shows shows_empty) alone found known rfl file

theorem Ascending.first_error {mote : MoteId} {sheet : Sheet} {e : IoError}
    (ascending : opened.Ascending) (found : opened.get? mote = some sheet)
    (failed : (sheet.flush site.disk).1 = .error e)
    (smaller : ∀ other another, opened.get? other = some another → other < mote →
      (another.flush site.disk).1 = .ok ()) :
    (closeEach site opened.sheets).1 = .error e := by
  obtain ⟨before, behind, whole⟩ :=
    List.append_of_mem ((get?_eq_some_iff ascending mote sheet).mp found)
  rw [whole]
  apply closeEach_error _ failed
  intro earlier member
  apply smaller earlier.1 earlier.2
  · apply (get?_eq_some_iff ascending earlier.1 earlier.2).mpr
    rw [whole]
    exact List.mem_append_left _ member
  · exact (ascending.split whole).1 earlier member

theorem Ascending.lists (ascending : opened.Ascending)
    (well : ∀ mote sheet, opened.get? mote = some sheet → (sheet.flush site.disk).1 = .ok ()) :
    ∃ closed, (closeEach site opened.sheets).1 = .ok closed ∧
      (closed.Pairwise fun earlier later => earlier.1 < later.1) ∧
      ∀ mote done, (mote, done) ∈ closed ↔
        ∃ sheet, opened.get? mote = some sheet ∧ done = ⟨sheet.path, sheet.rows⟩ := by
  have found_iff := get?_eq_some_iff ascending
  refine ⟨_, closeEach_well fun entry member => ?_, List.pairwise_map.mpr ascending, ?_⟩
  · exact well entry.1 entry.2 ((found_iff entry.1 entry.2).mpr member)
  · intro mote done
    simp only [found_iff, List.mem_map, Prod.mk.injEq, Prod.exists]
    constructor
    · rintro ⟨_, sheet, member, rfl, rfl⟩
      exact ⟨sheet, member, rfl⟩
    · rintro ⟨sheet, member, rfl⟩
      exact ⟨mote, sheet, member, rfl, rfl⟩

/-- Whatever was asked of the open sheets before, and whichever of them cannot be flushed: none is open
after they were closed, and each was noted once, in the order of the motes, as closed or as failed. A
sheet that can be flushed has left the header and the rows of its mote in its file, if no other sheet
is open on this file and nobody else touches it. If all can be flushed, they are listed in ascending
order with their paths and rows; else the failure of the smallest mote is told. Closing again lists
nothing and does nothing. -/
theorem closing_goes_on (run : Runs between empty start log opened site)
    (meanwhile : between site met) :
    let register := Register.ofLog log
    let outcome := opened.closeAll met
    outcome.2.1 = empty ∧
    outcome.2.2.journal.toList = met.journal.toList ++
      opened.sheets.map (fun entry => entry.2.closingEntry met.disk) ∧
    (∀ mote sheet record, opened.get? mote = some sheet → register.lookup mote = some record →
      (sheet.flush met.disk).1 = .ok () → opened.Alone mote sheet.place →
      Spares between sheet.place →
        outcome.2.2.disk.node? sheet.place = some (.file (page record.lines))) ∧
    (∀ mote sheet e, opened.get? mote = some sheet → (sheet.flush met.disk).1 = .error e →
      (∀ other another, opened.get? other = some another → other < mote →
        (another.flush met.disk).1 = .ok ()) → outcome.1 = .error e) ∧
    ((∀ mote sheet, opened.get? mote = some sheet → (sheet.flush met.disk).1 = .ok ()) →
      ∃ closed, outcome.1 = .ok closed ∧
        (closed.Pairwise fun earlier later => earlier.1 < later.1) ∧
        ∀ mote done, (mote, done) ∈ closed ↔
          ∃ sheet, opened.get? mote = some sheet ∧ done = ⟨sheet.path, sheet.rows⟩) ∧
    ∀ later, outcome.2.1.closeAll later = (.ok [], empty, later) := by
  intro register outcome
  have ascending : opened.Ascending := (run.shows shows_empty).ascending
  refine ⟨rfl, closeEach_journal met opened.sheets, ?_, ?_, ?_, fun _ => rfl⟩
  · intro mote sheet record found known well alone spares
    exact run.leaves meanwhile found known well alone spares
  · intro mote sheet e found failed smaller
    exact ascending.first_error found failed smaller
  · intro all
    exact ascending.lists all

-- A sheet on the full device between two others.
theorem failure_between_two_files :
    let first := empty.ask ⟨.blank, .empty⟩ (.obtain 1 "a" "h")
    let second := first.2.1.ask first.2.2 (.obtain 2 "/dev/full" "h")
    let third := second.2.1.ask second.2.2 (.obtain 3 "b" "h")
    let wrote := third.2.1.ask third.2.2 (.write 3 "5,7")
    let outcome := wrote.2.1.closeAll wrote.2.2
    outcome.1 = .error .storageFull ∧
      outcome.2.2.disk.node? ["work", "run", "b"] = some (.file (page ["h", "5,7"])) := by
  intro first second third wrote outcome
  have run : Runs Eq empty ⟨.blank, .empty⟩ _ wrote.2.1 wrote.2.2 :=
    .ask _ rfl (.ask _ rfl (.ask _ rfl (.ask _ rfl (.done _ _))))
  obtain ⟨_, _, written, fails, _, _⟩ := closing_goes_on run rfl
  have sheets : wrote.2.1.sheets = [(1, ⟨"a", ["work", "run", "a"], 0, [10, 104], 0⟩),
      (2, ⟨"/dev/full", ["dev", "full"], 0, [10, 104], 0⟩),
      (3, ⟨"b", ["work", "run", "b"], 0, [10, 55, 44, 53, 10, 104], 1⟩)] := by decide +kernel
  have member : ∀ other sheet, wrote.2.1.get? other = some sheet →
      (other, sheet) ∈ wrote.2.1.sheets := by
    intro other sheet found
    exact (get?_eq_some_iff (by rw [Ascending, sheets]; decide) other sheet).mp found
  rw [sheets] at member
  constructor
  · apply fails 2 ⟨"/dev/full", ["dev", "full"], 0, [10, 104], 0⟩
    · rw [get?, sheets]
      rfl
    · decide +kernel
    · intro other another found smaller
      have among := member other another found
      simp only [List.mem_cons, List.not_mem_nil, or_false, Prod.mk.injEq] at among
      rcases among with ⟨rfl, rfl⟩ | ⟨rfl, rfl⟩ | ⟨rfl, rfl⟩
      · decide +kernel
      · exact absurd smaller (by decide)
      · exact absurd smaller (by decide)
  · refine written 3 ⟨"b", ["work", "run", "b"], 0, [10, 55, 44, 53, 10, 104], 1⟩
      ⟨"b", "h", ["5,7"]⟩ ?_ (by decide +kernel) (by decide +kernel) ?_ ?_
    · rw [get?, sheets]
      rfl
    · intro other sheet found here
      have among := member other sheet found
      simp only [List.mem_cons, List.not_mem_nil, or_false, Prod.mk.injEq] at among
      rcases among with ⟨rfl, rfl⟩ | ⟨rfl, rfl⟩ | ⟨rfl, rfl⟩
      · exact absurd here (by decide)
      · exact absurd here (by decide)
      · rfl
    · rintro site _ rfl
      exact ⟨rfl, rfl⟩

-- Two sheets on one file: the one that is closed last writes over the other one's row.
theorem shared_file_loses_row :
    let first := empty.ask ⟨.blank, .empty⟩ (.obtain 1 "a" "h")
    let second := first.2.1.ask first.2.2 (.obtain 2 "a" "h")
    let third := second.2.1.ask second.2.2 (.write 1 "one")
    let fourth := third.2.1.ask third.2.2 (.write 2 "two")
    let outcome := fourth.2.1.closeAll fourth.2.2
    (Register.ofLog [(.obtain 1 "a" "h", first.1), (.obtain 2 "a" "h", second.1),
        (.write 1 "one", third.1), (.write 2 "two", fourth.1)]).lookup 1 =
          some ⟨"a", "h", ["one"]⟩ ∧
      outcome.1 = .ok [(1, ⟨"a", 1⟩), (2, ⟨"a", 1⟩)] ∧
      outcome.2.2.disk.filesHere = [("a", page ["h", "two"])] ∧
      ¬ page ["one"] <:+: page ["h", "two"] := by
  decide +kernel

end OpenSheets

open Text

namespace Disk

def SameFiles (one other : Disk) : Prop :=
  ∀ place bytes, one.node? place = some (.file bytes) ↔ other.node? place = some (.file bytes)

variable {one other left left' : Disk} {place : Place} {offset : Nat} {piece : Bytes}

-- Who owns no place can add folders, and that is all.
theorem Changed.sameFiles (changed : Changed (fun _ => False) one other) : one.SameFiles other := by
  intro place bytes
  constructor
  · exact changed.other not_false
  · intro found
    cases before : one.node? place with
    | none => rcases changed.fresh place before with absent | folder | ⟨own, _⟩ <;> simp_all
    | some node => rw [← changed.other not_false before, found]

theorem SameFiles.write_ok (same : one.SameFiles other)
    (written : one.write place offset piece = .ok left) :
    ∃ left', other.write place offset piece = .ok left' ∧ left.SameFiles left' := by
  obtain ⟨bytes, isFile, _⟩ := Disk.write_ok written
  have isFile' := (same place bytes).mp isFile
  rw [write_file piece isFile] at written
  cases written
  refine ⟨_, write_file piece isFile', ?_⟩
  intro second content
  rw [node?_put one _ _ _ (ne_root one (by simp [isFile])),
    node?_put other _ _ _ (ne_root other (by simp [isFile']))]
  by_cases here : second = place
  · rw [if_pos here, if_pos here]
  · rw [if_neg here, if_neg here]
    exact same second content

theorem SameFiles.write_error {e : IoError} (same : one.SameFiles other)
    (refused : one.write place offset piece = .error e) :
    other.write place offset piece = .error e := by
  unfold Disk.write at refused ⊢
  split at refused
  · cases refused
  · next noFile =>
    cases refused
    split
    · next bytes isFile => exact absurd ((same place bytes).mpr isFile) (noFile bytes)
    · rfl

end Disk

namespace Sheet

def Agree (one other : Except IoError Unit × Sheet × Disk) : Prop :=
  ∃ outcome sheet left left', one = (outcome, sheet, left) ∧ other = (outcome, sheet, left') ∧
    left.SameFiles left'

variable {one other : Disk}

theorem agree_same (outcome : Except IoError Unit) (sheet : Sheet) (same : one.SameFiles other) :
    Agree (outcome, sheet, one) (outcome, sheet, other) :=
  ⟨outcome, sheet, one, other, rfl, rfl, same⟩

theorem writeThrough_agree (sheet : Sheet) (same : one.SameFiles other) (piece : Bytes) :
    Agree (sheet.writeThrough one piece) (sheet.writeThrough other piece) := by
  unfold writeThrough
  cases written : one.write sheet.place sheet.offset piece with
  | error e =>
      rw [same.write_error written]
      exact agree_same _ sheet same
  | ok left =>
      obtain ⟨left', written', still⟩ := same.write_ok written
      rw [written']
      exact agree_same _ _ still

theorem flush_agree (sheet : Sheet) (same : one.SameFiles other) :
    Agree (sheet.flush one) (sheet.flush other) := by
  unfold flush
  split
  · exact agree_same _ sheet same
  · obtain ⟨outcome, next, left, left', here, there, still⟩ :=
      writeThrough_agree sheet same sheet.pending
    rw [here, there]
    cases outcome with
    | error e => exact agree_same _ next still
    | ok done => exact agree_same _ _ still

theorem put_agree (sheet : Sheet) (same : one.SameFiles other) (piece : Bytes) :
    Agree (sheet.put one piece) (sheet.put other piece) := by
  -- With room in the buffer the piece comes to the sheet as it is, else to the flushed one.
  have fits {sheet : Sheet} {one other : Disk} (same : one.SameFiles other) :
      Agree (if piece.length < capacity then
          (.ok (), { sheet with newestPending := piece.reverse ++ sheet.newestPending }, one)
        else sheet.writeThrough one piece)
        (if piece.length < capacity then
          (.ok (), { sheet with newestPending := piece.reverse ++ sheet.newestPending }, other)
        else sheet.writeThrough other piece) := by
    split
    · exact agree_same _ _ same
    · exact writeThrough_agree sheet same piece
  unfold put
  by_cases room : sheet.newestPending.length + piece.length ≤ capacity
  · simp only [if_pos room]
    exact fits same
  · simp only [if_neg room]
    obtain ⟨outcome, next, left, left', here, there, still⟩ := flush_agree sheet same
    rw [here, there]
    cases outcome with
    | error e => exact agree_same _ next still
    | ok done => exact fits still

theorem putLine_agree (sheet : Sheet) (same : one.SameFiles other) (line : String) :
    Agree (sheet.putLine one line) (sheet.putLine other line) := by
  unfold putLine
  obtain ⟨outcome, next, left, left', here, there, still⟩ := put_agree sheet same (encode line)
  rw [here, there]
  cases outcome with
  | error e => exact agree_same _ next still
  | ok done => exact put_agree next still [10]

theorem writeRow_agree (sheet : Sheet) (same : one.SameFiles other) (row : String) :
    Agree (sheet.writeRow one row) (sheet.writeRow other row) := by
  unfold writeRow
  obtain ⟨outcome, next, left, left', here, there, still⟩ := putLine_agree sheet same row
  rw [here, there]
  cases outcome with
  | error e => exact agree_same _ next still
  | ok done => exact agree_same _ _ still

end Sheet

namespace OpenSheets

variable {site other : Site}

theorem closeOne_agree (sheet : Sheet) (same : site.disk.SameFiles other.disk) :
    (closeOne sheet other).1 = (closeOne sheet site).1 ∧
      (closeOne sheet site).2.disk.SameFiles (closeOne sheet other).2.disk := by
  obtain ⟨outcome, next, left, left', here, there, still⟩ := Sheet.flush_agree sheet same
  rw [(closeOne_eq sheet site).1, (closeOne_eq sheet site).2, (closeOne_eq sheet other).1,
    (closeOne_eq sheet other).2, Sheet.close_eq, Sheet.close_eq, here, there]
  exact ⟨rfl, still⟩

theorem closeEach_agree (sheets : List (MoteId × Sheet)) (same : site.disk.SameFiles other.disk) :
    (closeEach other sheets).1 = (closeEach site sheets).1 ∧
      (closeEach site sheets).2.disk.SameFiles (closeEach other sheets).2.disk := by
  induction sheets generalizing site other with
  | nil => exact ⟨rfl, same⟩
  | cons first rest ih =>
      obtain ⟨one, left⟩ := closeOne_agree first.2 same
      obtain ⟨outcome, still⟩ := ih left
      rw [closeEach_disk, closeEach_disk]
      refine ⟨?_, still⟩
      rw [closeEach, closeEach, one, outcome]
      rcases (closeOne first.2 site).1 with e | done
      · rfl
      · rcases (closeEach (closeOne first.2 site).2 rest).1 with e | dones <;> rfl

end OpenSheets

end MoteCapture

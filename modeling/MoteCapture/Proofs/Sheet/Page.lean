import MoteCapture.Proofs.Disk
import MoteCapture.Sheet

/-!
What a sheet holds: the bytes that were written to its file and those that wait in its buffer make
one text. Whatever is put to a sheet comes to the end of that text, whether or not the buffer is
flushed on the way, and on a file nothing of it fails. A device takes no byte, so there the whole
text waits in the buffer.
-/

namespace MoteCapture.Sheet

open Text

def page (lines : List String) : Bytes :=
  lines.flatMap fun line => encode line ++ [10]

theorem page_append (first second : List String) : page (first ++ second) = page first ++ page second := by
  simp [page]

theorem page_cons_ne_nil (line : String) (rest : List String) : page (line :: rest) ≠ [] := by
  simp [page]

def Holds (sheet : Sheet) (disk : Disk) (text : Bytes) : Prop :=
  ∃ written, sheet.offset = written.length ∧ written ++ sheet.pending = text ∧
    (disk.node? sheet.place = some (.file written) ∨
      written = [] ∧ disk.node? sheet.place = some .full)

/-- The sheet is open on a device, and something waits in its buffer. -/
def Clogged (sheet : Sheet) (disk : Disk) : Prop :=
  disk.node? sheet.place = some .full ∧ sheet.newestPending ≠ []

def OnFile (sheet : Sheet) (disk : Disk) : Prop :=
  ∃ bytes, disk.node? sheet.place = some (.file bytes)

theorem Holds.changed {own : Place → Prop} {sheet : Sheet} {before after : Disk} {text : Bytes}
    (held : sheet.Holds before text) (changed : before.Changed own after)
    (foreign : ¬ own sheet.place) : sheet.Holds after text := by
  obtain ⟨written, behind, whole, stands⟩ := held
  exact ⟨written, behind, whole, stands.imp (changed.other foreign) fun ⟨bare, device⟩ =>
    ⟨bare, changed.full device⟩⟩

theorem OnFile.changed {own : Place → Prop} {sheet : Sheet} {before after : Disk}
    (file : sheet.OnFile before) (changed : before.Changed own after) : sheet.OnFile after := by
  obtain ⟨bytes, isFile⟩ := file
  exact changed.file isFile

theorem Clogged.changed {own : Place → Prop} {sheet : Sheet} {before after : Disk}
    (clogged : sheet.Clogged before) (changed : before.Changed own after) : sheet.Clogged after :=
  ⟨changed.full clogged.1, clogged.2⟩

theorem Clogged.not_onFile {sheet : Sheet} {disk : Disk} (clogged : sheet.Clogged disk) :
    ¬ sheet.OnFile disk := by
  rintro ⟨bytes, isFile⟩
  rw [clogged.1] at isFile
  cases isFile

-- On a device nothing was written, so a text that is not empty waits in the buffer.
theorem Holds.onFile_or_clogged {sheet : Sheet} {disk : Disk} {text : Bytes}
    (held : sheet.Holds disk text) (filled : text ≠ []) :
    sheet.OnFile disk ∨ sheet.Clogged disk := by
  obtain ⟨written, _, whole, isFile | ⟨bare, device⟩⟩ := held
  · exact Or.inl ⟨written, isFile⟩
  · refine Or.inr ⟨device, fun empty => filled ?_⟩
    rw [← whole, bare, pending, empty]
    rfl

structure Appended (sheet : Sheet) (disk : Disk) (piece : Bytes)
    (outcome : Except IoError Unit × Sheet × Disk) : Prop where
  path : outcome.2.1.path = sheet.path
  place : outcome.2.1.place = sheet.place
  changed : Disk.Changed (· = sheet.place) disk outcome.2.2
  holds : ∀ text, sheet.Holds disk text → outcome.1 = .ok () →
    outcome.2.1.Holds outcome.2.2 (text ++ piece)
  succeeds : sheet.OnFile disk → outcome.1 = .ok ()
  clogged : sheet.Clogged disk → outcome.2.1.Clogged outcome.2.2

variable {sheet next : Sheet} {disk after : Disk} {piece : Bytes}

theorem writeThrough_ok (written : sheet.writeThrough disk piece = (.ok (), next, after)) :
    next = { sheet with offset := sheet.offset + piece.length } ∧
      disk.write sheet.place sheet.offset piece = .ok after := by
  unfold writeThrough at written
  split at written
  · next outcome =>
    cases written
    exact ⟨rfl, outcome⟩
  · cases written

theorem writeThrough_error {e : IoError}
    (failed : sheet.writeThrough disk piece = (.error e, next, after)) :
    next = sheet ∧ after = disk ∧ ¬ sheet.OnFile disk := by
  unfold writeThrough at failed
  split at failed
  · cases failed
  · next outcome =>
    cases failed
    refine ⟨rfl, rfl, ?_⟩
    rintro ⟨bytes, isFile⟩
    rw [Disk.write_file piece isFile] at outcome
    cases outcome

-- Nothing but a file takes bytes, so whatever was written stands in a file.
theorem write_behind {written : Bytes} (behind : sheet.offset = written.length)
    (stands : disk.node? sheet.place = some (.file written) ∨
      written = [] ∧ disk.node? sheet.place = some .full)
    (wrote : disk.write sheet.place sheet.offset piece = .ok after) :
    after.node? sheet.place = some (.file (written ++ piece)) := by
  obtain ⟨bytes, isFile, left⟩ := Disk.write_ok wrote
  rcases stands with same | ⟨_, device⟩
  · rw [isFile] at same
    cases same
    rw [left, behind, Disk.overwrite_end]
  · rw [isFile] at device
    cases device

theorem write_not_clogged {offset : Nat}
    (wrote : disk.write sheet.place offset piece = .ok after) : ¬ sheet.Clogged disk := by
  intro clogged
  obtain ⟨bytes, isFile, _⟩ := Disk.write_ok wrote
  exact clogged.not_onFile ⟨bytes, isFile⟩

-- A piece that is refused leaves the sheet as it was.
theorem refused_appended (noFile : ¬ sheet.OnFile disk) (e : IoError) :
    Appended sheet disk piece (.error e, sheet, disk) where
  path := rfl
  place := rfl
  changed := .refl disk
  holds _ _ well := by cases well
  succeeds file := absurd file noFile
  clogged clogged := clogged

theorem flush_empties (flushed : sheet.flush disk = (.ok (), next, after)) :
    next.newestPending = [] := by
  unfold flush at flushed
  split at flushed
  · next bare =>
    cases flushed
    exact List.isEmpty_iff.mp bare
  · split at flushed
    · cases flushed
      rfl
    · next failed => exact absurd flushed (failed next after)

theorem flush_appended (sheet : Sheet) (disk : Disk) : Appended sheet disk [] (sheet.flush disk) := by
  unfold flush
  split
  · exact ⟨rfl, rfl, .refl disk, fun text held _ => by simpa using held, fun _ => rfl, id⟩
  · split
    · next written after outcome =>
      obtain ⟨rfl, wrote⟩ := writeThrough_ok outcome
      refine ⟨rfl, rfl, Disk.changed_write wrote, ?_, fun _ => rfl,
        fun clogged => absurd clogged (write_not_clogged wrote)⟩
      rintro text ⟨before, behind, whole, stands⟩ _
      have left := write_behind behind stands wrote
      refine ⟨before ++ sheet.pending, ?_, ?_, Or.inl left⟩
      · simp [behind]
      · simpa [pending] using whole
    · next failed =>
      rcases outcome : sheet.writeThrough disk sheet.pending with ⟨e | ⟨⟩, next, after⟩
      · obtain ⟨rfl, rfl, noFile⟩ := writeThrough_error outcome
        exact refused_appended noFile e
      · exact absurd outcome (failed next after)

-- One piece after the other.
theorem Appended.andThen {first second : Bytes} {outcome later : Except IoError Unit × Sheet × Disk}
    (one : Appended sheet disk first outcome) (well : outcome.1 = .ok ())
    (two : Appended outcome.2.1 outcome.2.2 second later) :
    Appended sheet disk (first ++ second) later where
  path := two.path.trans one.path
  place := two.place.trans one.place
  changed := one.changed.trans (one.place ▸ two.changed)
  holds text held ended := by
    rw [← List.append_assoc]
    exact two.holds _ (one.holds text held well) ended
  succeeds file := by
    obtain ⟨bytes, isFile⟩ := file
    obtain ⟨later, still⟩ := one.changed.file isFile
    exact two.succeeds ⟨later, by rw [one.place]; exact still⟩
  clogged clogged := two.clogged (one.clogged clogged)

-- What fails on the way fails as a whole.
theorem Appended.fails {first : Bytes} {e : IoError} {outcome : Except IoError Unit × Sheet × Disk}
    (one : Appended sheet disk first outcome) (failed : outcome.1 = .error e) :
    Appended sheet disk piece outcome where
  path := one.path
  place := one.place
  changed := one.changed
  holds _ _ well := by rw [failed] at well; cases well
  succeeds file := by rw [one.succeeds file] at failed; cases failed
  clogged := one.clogged

-- A piece that the buffer has room for waits there.
theorem wait_appended (sheet : Sheet) (disk : Disk) (piece : Bytes) :
    Appended sheet disk piece
      (.ok (), { sheet with newestPending := piece.reverse ++ sheet.newestPending }, disk) := by
  refine ⟨rfl, rfl, .refl disk, ?_, fun _ => rfl, fun clogged => ⟨clogged.1, ?_⟩⟩
  · rintro text ⟨before, behind, whole, stands⟩ _
    exact ⟨before, behind, by simp [← whole, pending], stands⟩
  · simp [clogged.2]

-- A piece that is as long as the buffer is written behind what was written.
theorem writeThrough_appended (bare : sheet.newestPending = []) (piece : Bytes) :
    Appended sheet disk piece (sheet.writeThrough disk piece) := by
  rcases outcome : sheet.writeThrough disk piece with ⟨e | ⟨⟩, next, after⟩
  · obtain ⟨rfl, rfl, noFile⟩ := writeThrough_error outcome
    exact refused_appended noFile e
  · obtain ⟨rfl, wrote⟩ := writeThrough_ok outcome
    refine ⟨rfl, rfl, Disk.changed_write wrote, ?_, fun _ => rfl,
      fun clogged => absurd clogged (write_not_clogged wrote)⟩
    rintro text ⟨before, behind, whole, stands⟩ _
    have left := write_behind behind stands wrote
    refine ⟨before ++ piece, by simp [behind], ?_, Or.inl left⟩
    rw [pending, bare, List.reverse_nil, List.append_nil] at whole
    simp [pending, bare, whole]

theorem put_appended (sheet : Sheet) (disk : Disk) (piece : Bytes) :
    Appended sheet disk piece (sheet.put disk piece) := by
  unfold put
  by_cases fits : sheet.newestPending.length + piece.length ≤ capacity
  · simp only [if_pos fits]
    split
    · exact wait_appended sheet disk piece
    · next long =>
      -- A piece of the buffer's length fits only into an empty buffer.
      have bare : sheet.newestPending = [] := List.length_eq_zero_iff.mp (by omega)
      exact writeThrough_appended bare piece
  · simp only [if_neg fits]
    have room := flush_appended sheet disk
    rcases outcome : sheet.flush disk with ⟨e | ⟨⟩, flushed, after⟩
    · rw [outcome] at room
      exact room.fails rfl
    · rw [outcome] at room
      simp only
      split
      · exact room.andThen rfl (wait_appended flushed after piece)
      · exact room.andThen rfl (writeThrough_appended (flush_empties outcome) piece)

theorem putLine_appended (sheet : Sheet) (disk : Disk) (line : String) :
    Appended sheet disk (page [line]) (sheet.putLine disk line) := by
  unfold putLine
  have text := put_appended sheet disk (encode line)
  rcases outcome : sheet.put disk (encode line) with ⟨e | ⟨⟩, next, after⟩
  · rw [outcome] at text
    exact text.fails rfl
  · rw [outcome] at text
    have whole := text.andThen rfl (put_appended next after [10])
    simpa [page] using whole

theorem writeRow_appended (sheet : Sheet) (disk : Disk) (row : String) :
    Appended sheet disk (page [row]) (sheet.writeRow disk row) := by
  have line := putLine_appended sheet disk row
  unfold writeRow
  split
  · next outcome =>
    rw [outcome] at line
    exact ⟨line.path, line.place, line.changed, line.holds, line.succeeds, line.clogged⟩
  · exact line

-- Into a device goes what the buffer has room for, and nothing more.
theorem writeRow_overflows {row : String}
    (clogged : sheet.Clogged disk)
    (long : capacity < sheet.newestPending.length + (encode row).length) :
    sheet.writeRow disk row = (.error .storageFull, sheet, disk) := by
  have bare : sheet.newestPending.isEmpty = false := List.isEmpty_eq_false_iff.mpr clogged.2
  have refused : sheet.flush disk = (.error .storageFull, sheet, disk) := by
    simp [flush, bare, writeThrough, Disk.write, clogged.1]
  simp [writeRow, putLine, put, Nat.not_le.mpr long, refused]

theorem rows_writeThrough (sheet : Sheet) (disk : Disk) (piece : Bytes) :
    (sheet.writeThrough disk piece).2.1.rows = sheet.rows := by
  unfold writeThrough
  split <;> rfl

theorem rows_flush (sheet : Sheet) (disk : Disk) : (sheet.flush disk).2.1.rows = sheet.rows := by
  have through := rows_writeThrough sheet disk sheet.pending
  unfold flush
  split
  · rfl
  · split
    · next outcome =>
      rw [outcome] at through
      exact through
    · exact through

theorem rows_put (sheet : Sheet) (disk : Disk) (piece : Bytes) :
    (sheet.put disk piece).2.1.rows = sheet.rows := by
  have flushed := rows_flush sheet disk
  unfold put
  by_cases fits : sheet.newestPending.length + piece.length ≤ capacity
  · simp only [if_pos fits]
    split
    · rfl
    · exact rows_writeThrough sheet disk piece
  · simp only [if_neg fits]
    rcases outcome : sheet.flush disk with ⟨e | ⟨⟩, next, after⟩
    · rw [outcome] at flushed
      exact flushed
    · rw [outcome] at flushed
      simp only
      split
      · exact flushed
      · exact (rows_writeThrough next after piece).trans flushed

theorem rows_putLine (sheet : Sheet) (disk : Disk) (line : String) :
    (sheet.putLine disk line).2.1.rows = sheet.rows := by
  have text := rows_put sheet disk (encode line)
  unfold putLine
  rcases outcome : sheet.put disk (encode line) with ⟨e | ⟨⟩, next, after⟩
  · rw [outcome] at text
    exact text
  · rw [outcome] at text
    exact (rows_put next after [10]).trans text

theorem rows_writeRow {row : String} (written : sheet.writeRow disk row = (.ok (), next, after)) :
    next.rows = sheet.rows + 1 := by
  have line := rows_putLine sheet disk row
  unfold writeRow at written
  split at written
  · next outcome =>
    cases written
    rw [outcome] at line
    exact congrArg (· + 1) line
  · next failed => exact absurd written (failed next after)

theorem rows_writeRow_error {row : String} {e : IoError}
    (failed : sheet.writeRow disk row = (.error e, next, after)) : next.rows = sheet.rows := by
  have line := rows_putLine sheet disk row
  unfold writeRow at failed
  split at failed
  · cases failed
  · rw [failed] at line
    exact line

theorem changed_close (sheet : Sheet) (disk : Disk) :
    disk.Changed (· = sheet.place) (sheet.close disk).2 := by
  have flushed := (flush_appended sheet disk).changed
  unfold close
  split <;> simp_all

theorem close_done {done : ClosedSheet} (closed : sheet.close disk = (.ok done, after)) :
    done = ⟨sheet.path, sheet.rows⟩ := by
  unfold close at closed
  split at closed
  · cases closed
    rfl
  · cases closed

-- A sheet that could be closed has left its text in its file; a device would have taken none.
theorem close_leaves {text : Bytes} {done : ClosedSheet} (held : sheet.Holds disk text)
    (filled : text ≠ []) (closed : sheet.close disk = (.ok done, after)) :
    after.node? sheet.place = some (.file text) := by
  have flushed := flush_appended sheet disk
  unfold close at closed
  split at closed
  · next bare disk' outcome =>
    cases closed
    rw [outcome] at flushed
    obtain ⟨written, _, whole, stands⟩ := flushed.holds text held rfl
    simp only [pending, flush_empties outcome, List.reverse_nil, List.append_nil] at whole
    subst whole
    rcases stands with isFile | ⟨nothing, _⟩
    · rw [flushed.place] at isFile
      exact isFile
    · exact absurd nothing filled
  · cases closed

theorem close_clogged {done : ClosedSheet} (clogged : sheet.Clogged disk) :
    sheet.close disk ≠ (.ok done, after) := by
  intro closed
  have flushed := flush_appended sheet disk
  unfold close at closed
  split at closed
  · next outcome =>
    rw [outcome] at flushed
    exact (flushed.clogged clogged).2 (flush_empties outcome)
  · cases closed

theorem close_onFile (file : sheet.OnFile disk) :
    ∃ left, sheet.close disk = (.ok ⟨sheet.path, sheet.rows⟩, left) := by
  have flushed := flush_appended sheet disk
  unfold close
  split
  · next disk' _ => exact ⟨disk', rfl⟩
  · next e _ disk' outcome =>
    have well := flushed.succeeds file
    rw [outcome] at well
    cases well

theorem changed_create (site : Site) (path header : String) :
    site.disk.Changed (· = (Path.ofString path).place site.disk.here)
      (create site path header).2.disk := by
  have around : Disk.Changed (· = (Path.ofString path).place site.disk.here) site.disk
      (site.disk.ensureParent (.ofString path)).2 :=
    Disk.changed_ensureParent site.disk (.ofString path)
  unfold create
  split
  · next outcome =>
    rw [outcome] at around
    exact around
  · next disk' outcome =>
    rw [outcome] at around
    have made := Disk.changed_create disk' (.ofString path)
    rw [around.here] at made
    split
    · next failed =>
      rw [failed] at made
      exact around.trans made
    · next place disk'' success =>
      rw [success] at made
      have headed := putLine_appended ⟨path, place, 0, [], 0⟩ disk'' header
      have here := (Disk.create_ok success).1
      rw [around.here] at here
      subst here
      split
      · next outcome' =>
        rw [outcome'] at headed
        exact (around.trans made).trans headed.changed
      · next outcome' =>
        rw [outcome'] at headed
        exact (around.trans made).trans headed.changed

-- What becomes of a new sheet depends on the disk alone.
theorem create_alike {site other : Site} (same : site.disk = other.disk)
    (path header : String) :
    (create site path header).1 = (create other path header).1 ∧
      (create site path header).2.disk = (create other path header).2.disk := by
  unfold create
  rw [same]
  rcases other.disk.ensureParent (.ofString path) with ⟨e | ⟨⟩, disk⟩
  · exact ⟨rfl, rfl⟩
  · simp only
    rcases disk.create (.ofString path) with ⟨e | place, made⟩
    · exact ⟨rfl, rfl⟩
    · simp only
      rcases (Sheet.mk path place 0 [] 0).putLine made header with ⟨e | ⟨⟩, sheet, written⟩
      · exact ⟨rfl, rfl⟩
      · exact ⟨rfl, rfl⟩

-- A new sheet holds its header, at the place that its path leads to.
theorem create_ok {site left : Site} {path header : String}
    (created : create site path header = (.ok sheet, left)) :
    sheet.path = path ∧ sheet.place = (Path.ofString path).place site.disk.here ∧ sheet.rows = 0 ∧
      left.disk.Leads (.ofString path) sheet.place ∧ sheet.Holds left.disk (page [header]) := by
  have around : Disk.Changed (fun _ => False) site.disk
      (site.disk.ensureParent (.ofString path)).2 :=
    Disk.changed_ensureParent site.disk (.ofString path)
  unfold create at created
  split at created
  · cases created
  · next disk' outcome =>
    rw [outcome] at around
    split at created
    · cases created
    · next place disk'' success =>
      obtain ⟨here, leads, node⟩ := Disk.create_ok success
      have headed := putLine_appended ⟨path, place, 0, [], 0⟩ disk'' header
      have fresh : Sheet.Holds ⟨path, place, 0, [], 0⟩ disk'' [] :=
        ⟨[], rfl, rfl, node.imp_right fun device => ⟨rfl, device⟩⟩
      split at created
      · cases created
      · next outcome' =>
        cases created
        rw [outcome'] at headed
        rw [around.here] at here
        have same : sheet.place = place := headed.place
        have rows := rows_putLine ⟨path, place, 0, [], 0⟩ disk'' header
        rw [outcome'] at rows
        refine ⟨headed.path, same.trans here, rows, ?_, headed.holds [] fresh rfl⟩
        rw [same]
        exact leads.changed headed.changed

-- A sheet that was not made has left nothing but folders around it, for only on a device can the
-- header fail.
theorem changed_create_error {site left : Site} {path header : String} {e : IoError}
    (failed : create site path header = (.error e, left)) :
    site.disk.Changed (fun _ => False) left.disk := by
  have around : Disk.Changed (fun _ => False) site.disk
      (site.disk.ensureParent (.ofString path)).2 :=
    Disk.changed_ensureParent site.disk (.ofString path)
  unfold create at failed
  split at failed
  · next outcome =>
    cases failed
    rw [outcome] at around
    exact around
  · next disk' outcome =>
    rw [outcome] at around
    have made := Disk.changed_create disk' (.ofString path)
    split at failed
    · next e' disk'' refused =>
      cases failed
      rw [Disk.create_error refused]
      exact around
    · next place disk'' success =>
      obtain ⟨here, _, node⟩ := Disk.create_ok success
      rw [success, ← here] at made
      have headed := putLine_appended ⟨path, place, 0, [], 0⟩ disk'' header
      split at failed
      · next outcome' =>
        cases failed
        rw [outcome'] at headed
        rcases node with isFile | device
        · cases headed.succeeds ⟨[], isFile⟩
        · refine around.trans ((made.trans headed.changed).onDevices ?_)
          rintro _ rfl
          exact made.was_full device
      · cases failed

/-- The sheet is on a file and holds the text, or it is clogged and nothing is said about it. -/
def Carries (sheet : Sheet) (disk : Disk) (text : Bytes) : Prop :=
  sheet.OnFile disk ∧ sheet.Holds disk text ∨ sheet.Clogged disk

namespace Carries

variable {own : Place → Prop} {text : Bytes} {row : String}

theorem held (carries : sheet.Carries disk text) (file : sheet.OnFile disk) :
    sheet.Holds disk text := by
  rcases carries with ⟨_, held⟩ | clogged
  · exact held
  · exact absurd file clogged.not_onFile

theorem changed (carries : sheet.Carries disk text) (changed : disk.Changed own after)
    (foreign : ¬ own sheet.place) : sheet.Carries after text := by
  rcases carries with ⟨file, held⟩ | clogged
  · exact Or.inl ⟨file.changed changed, held.changed changed foreign⟩
  · exact Or.inr (clogged.changed changed)

theorem met (carries : sheet.Carries disk text)
    (same : after.node? sheet.place = disk.node? sheet.place) : sheet.Carries after text := by
  simpa [Carries, OnFile, Holds, Clogged, same] using carries

theorem writeRow_ok (carries : sheet.Carries disk text)
    (written : sheet.writeRow disk row = (.ok (), next, after)) :
    next.Carries after (text ++ page [row]) := by
  have appended := writeRow_appended sheet disk row
  rw [written] at appended
  rcases carries with ⟨file, held⟩ | clogged
  · obtain ⟨bytes, isFile⟩ := file.changed appended.changed
    exact Or.inl ⟨⟨bytes, by rw [appended.place]; exact isFile⟩, appended.holds _ held rfl⟩
  · exact Or.inr (appended.clogged clogged)

-- On a file no row fails, so a sheet whose row failed is on a device and stays clogged.
theorem writeRow_error {e : IoError} (carries : sheet.Carries disk text)
    (failed : sheet.writeRow disk row = (.error e, next, after)) : next.Carries after text := by
  have appended := writeRow_appended sheet disk row
  rw [failed] at appended
  rcases carries with ⟨file, _⟩ | clogged
  · cases appended.succeeds file
  · exact Or.inr (appended.clogged clogged)

theorem ofCreate {site left : Site} {path header : String}
    (created : create site path header = (.ok sheet, left)) :
    sheet.Carries left.disk (page [header]) := by
  have held := (create_ok created).2.2.2.2
  exact (held.onFile_or_clogged (page_cons_ne_nil header [])).imp_left fun file => ⟨file, held⟩

end Carries

end MoteCapture.Sheet

import MoteCapture.Proofs.Sheet.Page
import MoteCapture.Sheet

/-!
The open sheets as a map from motes to sheets, and what closing them all leaves. However many of
them cannot be flushed, every sheet on a file has left its text there.
-/

namespace MoteCapture.OpenSheets

open Text

theorem lookup_insertSorted (mote other : MoteId) (sheet : Sheet) (sheets : List (MoteId × Sheet)) :
    (insertSorted mote sheet sheets).lookup other =
      if other = mote then some sheet else sheets.lookup other := by
  induction sheets with
  | nil => simp [insertSorted, lookup_cons_ite]
  | cons entry rest ih =>
      rw [insertSorted]
      split
      · simp [lookup_cons_ite]
      · split
        · next same =>
          have hit : mote = entry.1 := beq_iff_eq.mp same
          by_cases found : other = mote
          · simp [lookup_cons_ite, found]
          · have passed : other ≠ entry.1 := hit ▸ found
            simp [lookup_cons_ite, found, passed]
        · next different =>
          have passed : mote ≠ entry.1 := by simpa using different
          by_cases found : other = mote
          · subst found
            simp [lookup_cons_ite, ih, passed]
          · simp [lookup_cons_ite, ih, found]

theorem get?_insert (opened : OpenSheets) (mote other : MoteId) (sheet : Sheet) :
    (opened.insert mote sheet).get? other =
      if other = mote then some sheet else opened.get? other :=
  lookup_insertSorted mote other sheet opened.sheets

theorem contains_insert (opened : OpenSheets) (mote : MoteId) (sheet : Sheet) :
    (opened.insert mote sheet).contains mote = true := by
  rw [contains, get?_insert, if_pos rfl, Option.isSome_some]

theorem insertSorted_insertSorted (mote : MoteId) (sheet next : Sheet)
    (sheets : List (MoteId × Sheet)) :
    insertSorted mote next (insertSorted mote sheet sheets) = insertSorted mote next sheets := by
  induction sheets with
  | nil => simp [insertSorted, UInt32.lt_irrefl]
  | cons entry rest ih =>
      by_cases before : mote < entry.1
      · simp [insertSorted, before, UInt32.lt_irrefl]
      · by_cases same : mote = entry.1
        · simp [insertSorted, same, UInt32.lt_irrefl]
        · simp [insertSorted, before, same, ih]

-- Of two sheets of one mote the later one counts.
theorem insert_insert (opened : OpenSheets) (mote : MoteId) (sheet next : Sheet) :
    (opened.insert mote sheet).insert mote next = opened.insert mote next :=
  congrArg OpenSheets.mk (insertSorted_insertSorted mote sheet next opened.sheets)

theorem isEmpty_iff {opened : OpenSheets} : opened.isEmpty = true ↔ opened = empty := by
  cases opened
  simp [isEmpty, empty]

def Ascending (opened : OpenSheets) : Prop :=
  opened.sheets.Pairwise fun earlier later => earlier.1 < later.1

theorem mem_insertSorted {mote : MoteId} {sheet : Sheet} {sheets : List (MoteId × Sheet)}
    {entry : MoteId × Sheet} (member : entry ∈ insertSorted mote sheet sheets) :
    entry = (mote, sheet) ∨ entry ∈ sheets := by
  induction sheets with
  | nil => simpa [insertSorted] using member
  | cons first rest ih =>
      rw [insertSorted] at member
      split at member
      · simpa using member
      · split at member
        · rcases List.mem_cons.mp member with new | old
          · exact Or.inl new
          · exact Or.inr (List.mem_cons_of_mem first old)
        · rcases List.mem_cons.mp member with same | later
          · exact Or.inr (same ▸ List.mem_cons_self)
          · exact (ih later).imp_right (List.mem_cons_of_mem first)

theorem ascending_empty : empty.Ascending := List.Pairwise.nil

theorem ascending_insert {opened : OpenSheets} (mote : MoteId) (sheet : Sheet)
    (ascending : opened.Ascending) : (opened.insert mote sheet).Ascending := by
  obtain ⟨sheets⟩ := opened
  simp only [Ascending, insert] at ascending ⊢
  induction sheets with
  | nil => simp [insertSorted]
  | cons entry rest ih =>
      obtain ⟨below, sorted⟩ := List.pairwise_cons.mp ascending
      rw [insertSorted]
      split
      · next before =>
        refine List.pairwise_cons.mpr ⟨fun later member => ?_, ascending⟩
        rcases List.mem_cons.mp member with same | deeper
        · rw [same]
          exact before
        · exact UInt32.lt_trans before (below later deeper)
      · next notBefore =>
        split
        · next same =>
          have hit : mote = entry.1 := beq_iff_eq.mp same
          exact List.pairwise_cons.mpr ⟨fun later member => hit ▸ below later member, sorted⟩
        · next different =>
          have apart : mote ≠ entry.1 := by simpa using different
          refine List.pairwise_cons.mpr ⟨fun later member => ?_, ih sorted⟩
          rcases mem_insertSorted member with new | old
          · rw [new]
            exact (UInt32.lt_or_lt_of_ne apart).resolve_left notBefore
          · exact below later old

theorem get?_eq_some_iff {opened : OpenSheets} (ascending : opened.Ascending) (mote : MoteId)
    (sheet : Sheet) : opened.get? mote = some sheet ↔ (mote, sheet) ∈ opened.sheets := by
  obtain ⟨sheets⟩ := opened
  simp only [get?, Ascending] at ascending ⊢
  induction sheets with
  | nil => simp
  | cons entry rest ih =>
      obtain ⟨below, sorted⟩ := List.pairwise_cons.mp ascending
      rw [lookup_cons_ite]
      by_cases hit : mote = entry.1
      · have absent : (mote, sheet) ∉ rest := fun member => by
          have := below _ member
          simp [hit] at this
        rw [hit] at absent ⊢
        simp [absent, Prod.ext_iff, eq_comm]
      · simp [hit, ih sorted, Prod.ext_iff]

-- The motes in front of one have smaller numbers, and those behind it greater ones.
theorem Ascending.split {opened : OpenSheets} {before behind : List (MoteId × Sheet)}
    {entry : MoteId × Sheet} (ascending : opened.Ascending)
    (whole : opened.sheets = before ++ entry :: behind) :
    (∀ earlier ∈ before, earlier.1 < entry.1) ∧ ∀ later ∈ behind, entry.1 < later.1 := by
  rw [Ascending, whole] at ascending
  obtain ⟨_, rest, across⟩ := List.pairwise_append.mp ascending
  constructor
  · intro earlier member
    exact across earlier member entry List.mem_cons_self
  · exact (List.pairwise_cons.mp rest).1

-- A mote without a sheet makes the sheets one more.
theorem size_insert_new {opened : OpenSheets} {mote : MoteId} (missing : opened.get? mote = none)
    (sheet : Sheet) : (opened.insert mote sheet).size = opened.size + 1 := by
  obtain ⟨sheets⟩ := opened
  simp only [size, insert, get?] at missing ⊢
  induction sheets with
  | nil => rfl
  | cons entry rest ih =>
      rw [lookup_cons_ite] at missing
      split at missing
      · cases missing
      · next different =>
        rw [insertSorted, if_neg different]
        split
        · rfl
        · rw [List.length_cons, ih missing, List.length_cons]

-- A sheet that takes the place of another one of its mote leaves their number.
theorem size_insert_old {opened : OpenSheets} {mote : MoteId} {old : Sheet}
    (ascending : opened.Ascending) (found : opened.get? mote = some old) (sheet : Sheet) :
    (opened.insert mote sheet).size = opened.size := by
  rw [get?_eq_some_iff ascending] at found
  obtain ⟨sheets⟩ := opened
  simp only [size, insert, Ascending] at ascending found ⊢
  induction sheets with
  | nil => cases found
  | cons entry rest ih =>
      obtain ⟨below, sorted⟩ := List.pairwise_cons.mp ascending
      rw [insertSorted]
      rcases List.mem_cons.mp found with same | later
      · simp [← same, UInt32.lt_irrefl]
      · have after := below _ later
        have apart : (mote == entry.1) = false := by
          rw [beq_eq_false_iff_ne]
          rintro rfl
          exact UInt32.lt_irrefl _ after
        rw [if_neg (UInt32.lt_asymm after), apart]
        simp [ih sorted later]

section Obtain

variable {opened left : OpenSheets} {mote : MoteId} {site after : Site} {isNew : Bool}
  {create : Site → Except IoError Sheet × Site}

-- A sheet that is there is taken, and nothing is created; else a created one is put in.
theorem obtain_ok {sheet : Sheet}
    (obtained : opened.obtain mote site create = (.ok sheet, isNew, left, after)) :
    (isNew = false ∧ opened.get? mote = some sheet ∧ left = opened ∧ after = site) ∨
      (isNew = true ∧ opened.get? mote = none ∧ create site = (.ok sheet, after) ∧
        left = opened.insert mote sheet) := by
  unfold obtain at obtained
  split at obtained
  · next found =>
    cases obtained
    exact Or.inl ⟨rfl, found, rfl, rfl⟩
  · next missing =>
    split at obtained
    · next made =>
      cases obtained
      exact Or.inr ⟨rfl, missing, made, rfl⟩
    · cases obtained

theorem obtain_error {e : IoError}
    (obtained : opened.obtain mote site create = (.error e, isNew, left, after)) :
    opened.get? mote = none ∧ create site = (.error e, after) ∧ left = opened := by
  unfold obtain at obtained
  split at obtained
  · cases obtained
  · next missing =>
    split at obtained
    · cases obtained
    · next failed =>
      cases obtained
      exact ⟨missing, failed, rfl⟩

end Obtain

/-! Closing. -/

theorem closeOne_eq (sheet : Sheet) (site : Site) :
    (closeOne sheet site).1 = (sheet.close site.disk).1 ∧
      (closeOne sheet site).2.disk = (sheet.close site.disk).2 := by
  unfold closeOne
  split <;> simp_all [Site.debug, Site.warn]

def Places (sheets : List (MoteId × Sheet)) (place : Place) : Prop :=
  ∃ entry ∈ sheets, entry.2.place = place

theorem places_of_get? {opened : OpenSheets} {mote : MoteId} {sheet : Sheet}
    (found : opened.get? mote = some sheet) : Places opened.sheets sheet.place := by
  obtain ⟨before, behind, whole, _⟩ := List.lookup_eq_some_iff.mp found
  exact ⟨(mote, sheet), by simp [whole], rfl⟩

theorem places_insert {opened : OpenSheets} {mote : MoteId} {sheet : Sheet} {place : Place}
    (own : Places (opened.insert mote sheet).sheets place) :
    sheet.place = place ∨ Places opened.sheets place := by
  obtain ⟨entry, member, same⟩ := own
  rcases mem_insertSorted member with rfl | old
  · exact Or.inl same
  · exact Or.inr ⟨entry, old, same⟩

theorem closeEach_disk (site : Site) (entry : MoteId × Sheet) (rest : List (MoteId × Sheet)) :
    (closeEach site (entry :: rest)).2 = (closeEach (closeOne entry.2 site).2 rest).2 := by
  rw [closeEach]
  split <;> rfl

theorem changed_closeEach (site : Site) (sheets : List (MoteId × Sheet)) :
    site.disk.Changed (Places sheets) (closeEach site sheets).2.disk := by
  induction sheets generalizing site with
  | nil => exact .refl _
  | cons entry rest ih =>
      rw [closeEach_disk]
      have first := entry.2.changed_close site.disk
      rw [← (closeOne_eq entry.2 site).2] at first
      have others := ih (closeOne entry.2 site).2
      apply Disk.Changed.trans
      · exact first.mono fun place same => ⟨entry, List.mem_cons_self, same.symm⟩
      · apply others.mono
        rintro place ⟨other, member, same⟩
        exact ⟨other, List.mem_cons_of_mem entry member, same⟩

def Apart (sheets : List (MoteId × Sheet)) : Prop :=
  sheets.Pairwise fun earlier later => earlier.2.place ≠ later.2.place

instance (sheets : List (MoteId × Sheet)) : Decidable (Apart sheets) :=
  inferInstanceAs (Decidable (sheets.Pairwise _))

theorem closeEach_append (site : Site) (before behind : List (MoteId × Sheet)) :
    (closeEach site (before ++ behind)).2 = (closeEach (closeEach site before).2 behind).2 := by
  induction before generalizing site with
  | nil => rfl
  | cons entry rest ih =>
      rw [List.cons_append, closeEach_disk, closeEach_disk, ih]

-- A sheet on a file that no other sheet is open on leaves its text there.
theorem closeEach_writes {site : Site} {before behind : List (MoteId × Sheet)}
    {entry : MoteId × Sheet} (elsewhere : ¬ Places (before ++ behind) entry.2.place) {text : Bytes}
    (filled : text ≠ []) (held : entry.2.Holds site.disk text) (file : entry.2.OnFile site.disk) :
    (closeEach site (before ++ entry :: behind)).2.disk.node? entry.2.place =
      some (.file text) := by
  have notBefore : ¬ Places before entry.2.place := by
    rintro ⟨other, member, same⟩
    exact elsewhere ⟨other, List.mem_append_left behind member, same⟩
  have notBehind : ¬ Places behind entry.2.place := by
    rintro ⟨other, member, same⟩
    exact elsewhere ⟨other, List.mem_append_right before member, same⟩
  rw [closeEach_append, closeEach_disk]
  have changed := changed_closeEach site before
  -- Its own closing writes the text, and whatever is closed before or after it stands elsewhere.
  obtain ⟨left, closed⟩ := Sheet.close_onFile (file.changed changed)
  have own := Sheet.close_leaves (held.changed changed notBefore) filled closed
  have disk : (closeOne entry.2 (closeEach site before).2).2.disk = left := by
    rw [(closeOne_eq entry.2 _).2, closed]
  rw [← disk] at own
  exact (changed_closeEach _ behind).other notBehind own

-- Each sheet on a file leaves its text there, whatever becomes of the other sheets.
theorem closeEach_leaves {site : Site} {sheets : List (MoteId × Sheet)} (apart : Apart sheets)
    {entry : MoteId × Sheet} (member : entry ∈ sheets) {text : Bytes} (filled : text ≠ [])
    (held : entry.2.Holds site.disk text) (file : entry.2.OnFile site.disk) :
    (closeEach site sheets).2.disk.node? entry.2.place = some (.file text) := by
  obtain ⟨before, behind, rfl⟩ := List.append_of_mem member
  refine closeEach_writes ?_ filled held file
  rintro ⟨other, among, same⟩
  obtain ⟨_, later, across⟩ := List.pairwise_append.mp apart
  rcases List.mem_append.mp among with earlier | after
  · exact across other earlier entry List.mem_cons_self same
  · exact (List.pairwise_cons.mp later).1 other after same.symm

-- Sheets that could all be closed are listed as they stood.
theorem closeEach_ok {site : Site} {sheets : List (MoteId × Sheet)}
    {closed : List (MoteId × ClosedSheet)} (well : (closeEach site sheets).1 = .ok closed) :
    closed = sheets.map fun entry => (entry.1, ⟨entry.2.path, entry.2.rows⟩) := by
  induction sheets generalizing site closed with
  | nil =>
      cases well
      rfl
  | cons first rest ih =>
      rw [closeEach] at well
      split at well
      · cases well
      · cases well
      · next done dones one others =>
        cases well
        rw [(closeOne_eq first.2 site).1] at one
        rw [Sheet.close_done (Prod.ext one rfl), ih others]
        rfl

-- One clogged sheet is enough for the closing to fail.
theorem closeEach_clogged {site : Site} {sheets : List (MoteId × Sheet)}
    {entry : MoteId × Sheet} (member : entry ∈ sheets) (clogged : entry.2.Clogged site.disk)
    (closed : List (MoteId × ClosedSheet)) : (closeEach site sheets).1 ≠ .ok closed := by
  induction sheets generalizing site closed with
  | nil => cases member
  | cons first rest ih =>
      intro well
      rw [closeEach] at well
      split at well
      · cases well
      · cases well
      · next done dones one others =>
        obtain ⟨outcome, disk⟩ := closeOne_eq first.2 site
        rcases List.mem_cons.mp member with rfl | later
        · rw [outcome] at one
          exact Sheet.close_clogged clogged (Prod.ext one rfl)
        · have changed := first.2.changed_close site.disk
          rw [← disk] at changed
          exact ih later (clogged.changed changed) dones others

-- Sheets that nobody closes leave what they would leave if they were closed.
theorem abandon_disk (opened : OpenSheets) (site : Site) :
    opened.abandon site.disk = (closeEach site opened.sheets).2.disk := by
  obtain ⟨sheets⟩ := opened
  rw [abandon]
  induction sheets generalizing site with
  | nil => rfl
  | cons first rest ih =>
      have flushed : (first.2.flush site.disk).2.2 = (closeOne first.2 site).2.disk := by
        rw [(closeOne_eq first.2 site).2, Sheet.close]
        split
        · next outcome => rw [outcome]
        · next outcome => rw [outcome]
      rw [List.foldl_cons, closeEach_disk, flushed]
      exact ih (closeOne first.2 site).2

-- What closing comes to depends on the disk alone.
theorem closeEach_alike {site other : Site} (same : site.disk = other.disk)
    (sheets : List (MoteId × Sheet)) :
    (closeEach site sheets).1 = (closeEach other sheets).1 ∧
      (closeEach site sheets).2.disk = (closeEach other sheets).2.disk := by
  induction sheets generalizing site other with
  | nil => exact ⟨rfl, same⟩
  | cons first rest ih =>
      obtain ⟨one, disk⟩ := closeOne_eq first.2 site
      obtain ⟨one', disk'⟩ := closeOne_eq first.2 other
      have left : (closeOne first.2 site).2.disk = (closeOne first.2 other).2.disk := by
        rw [disk, disk', same]
      obtain ⟨outcome, disks⟩ := ih left
      refine ⟨?_, by rw [closeEach_disk, closeEach_disk, disks]⟩
      rw [closeEach, closeEach, one, one', same, outcome]
      rcases (first.2.close other.disk).1 with e | done
      · rfl
      · rcases (closeEach (closeOne first.2 other).2 rest).1 with e | dones <;> rfl

-- What creating a sheet comes to, obtaining one comes to.
theorem obtain_alike (opened : OpenSheets) (mote : MoteId) {site other : Site}
    {create : Site → Except IoError Sheet × Site} (same : site.disk = other.disk)
    (creates : (create site).1 = (create other).1 ∧ (create site).2.disk = (create other).2.disk) :
    ∃ outcome isNew left here there, opened.obtain mote site create = (outcome, isNew, left, here) ∧
      opened.obtain mote other create = (outcome, isNew, left, there) ∧ here.disk = there.disk := by
  unfold obtain
  cases opened.get? mote with
  | some sheet => exact ⟨_, _, _, _, _, rfl, rfl, same⟩
  | none =>
      rcases one : create site with ⟨outcome, here⟩
      rcases two : create other with ⟨outcome', there⟩
      rw [one, two] at creates
      obtain ⟨rfl, disks⟩ : outcome = outcome' ∧ here.disk = there.disk := creates
      cases outcome with
      | error e => exact ⟨_, _, _, _, _, rfl, rfl, disks⟩
      | ok sheet => exact ⟨_, _, _, _, _, rfl, rfl, disks⟩

end MoteCapture.OpenSheets

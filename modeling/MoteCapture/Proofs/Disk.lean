import MoteCapture.Disk

/-!
What the operations of a disk do to it, seen through `node?`. A change adds folders where nothing was and
rewrites files at places of its own; everything else stays. What a path leads to is settled by the folders
around it, so a path that led to a place goes on leading there. Making folders rewrites no file, making or
writing a file rewrites that file alone, and a file that was made is found again by its path after every
later change.
-/

namespace MoteCapture

open Text

def Path.place (here : Place) (path : Path) : Place :=
  path.steps.foldl Place.next (if path.rooted then [] else here)

theorem lookup_cons_ite {key value : Type} [BEq key] [LawfulBEq key] (wanted : key)
    (entry : key × value) (rest : List (key × value)) :
    (entry :: rest).lookup wanted = if wanted == entry.1 then some entry.2 else rest.lookup wanted := by
  obtain ⟨own, value⟩ := entry
  by_cases hit : wanted = own
  · simp [hit]
  · have passed : (wanted == own) = false := beq_false_of_ne hit
    simp [List.lookup_cons, passed]

theorem lookup_putNode (place other : Place) (node : Node) (nodes : List (Place × Node)) :
    (putNode place node nodes).lookup other =
      if other = place then some node else nodes.lookup other := by
  induction nodes with
  | nil => simp [putNode, lookup_cons_ite]
  | cons entry rest ih =>
      rw [putNode]
      by_cases hit : entry.1 = place
      · by_cases same : other = place <;> simp [lookup_cons_ite, hit, same]
      · by_cases same : other = place
        · subst same
          simp [lookup_cons_ite, ih, hit, Ne.symm hit]
        · simp [lookup_cons_ite, ih, hit, same]

namespace Disk

theorem node?_put (disk : Disk) (place other : Place) (node : Node) (below : place ≠ []) :
    (disk.put place node).node? other = if other = place then some node else disk.node? other := by
  unfold node? put
  by_cases root : other = []
  · subst root
    simp [Ne.symm below]
  · simp [root, lookup_putNode]

@[simp] theorem node?_put_self (disk : Disk) {place : Place} (node : Node) (below : place ≠ []) :
    (disk.put place node).node? place = some node := by
  rw [node?_put disk place place node below, if_pos rfl]

-- The root is a folder, so whatever else is at a place is below the root.
theorem ne_root (disk : Disk) {place : Place} (other : disk.node? place ≠ some .folder) :
    place ≠ [] := by
  rintro rfl
  exact other rfl

theorem look_fits {disk : Disk} {place : Place}
    (short : (place.getLast?.getD "").utf8ByteSize ≤ greatestName) :
    disk.look place = .ok (disk.node? place) :=
  if_pos short

theorem look_ok {disk : Disk} {place : Place} {found : Option Node}
    (looked : disk.look place = .ok found) :
    disk.node? place = found ∧ (place.getLast?.getD "").utf8ByteSize ≤ greatestName := by
  unfold look at looked
  split at looked
  · next short =>
    cases looked
    exact ⟨rfl, short⟩
  · cases looked

theorem enter_ok {disk : Disk} {place next : Place} {step : String}
    (entered : disk.enter place step = .ok next) : next = place.next step := by
  unfold enter at entered
  unfold Place.next
  split at entered
  · next dot => simp_all
  · next noDot =>
    split at entered
    · next dots => simp_all
    · next noDots =>
      split at entered <;> simp_all

theorem walk_ok {disk : Disk} {place last : Place} {steps : List String}
    (walked : disk.walk place steps = .ok last) : last = steps.foldl Place.next place := by
  induction steps generalizing place with
  | nil =>
      cases walked
      rfl
  | cons step rest ih =>
      rw [walk] at walked
      split at walked
      · next next entered =>
        rw [List.foldl_cons, ← enter_ok entered]
        exact ih walked
      · cases walked

theorem locate_ok {disk : Disk} {path : Path} {place : Place}
    (located : disk.locate path = .ok place) : place = path.place disk.here := by
  unfold locate at located
  split at located
  · cases located
  split at located
  · cases located
  split at located
  · next bare =>
    split at located
    · next rooted =>
      cases located
      simp [Path.place, List.getLast?_eq_none_iff.mp bare, rooted]
    · cases located
  · next last ends =>
    split at located
    · cases located
    · next folder walked =>
      have steps : path.steps = path.steps.dropLast ++ [last] := by
        obtain ⟨front, split⟩ := List.getLast?_eq_some_iff.mp ends
        simp [split]
      have around := walk_ok walked
      have next : place = folder.next last := by
        unfold Place.next
        split at located
        · next dot =>
          cases located
          rw [if_pos dot]
        · next noDot =>
          rw [if_neg noDot]
          split at located
          · next dots =>
            cases located
            rw [if_pos dots]
          · next noDots =>
            cases located
            rw [if_neg noDots]
      rw [next, around, Path.place]
      conv => rhs; rw [steps, List.foldl_append]
      rfl

/-- `after` is `before` with folders added where nothing was and with files made or rewritten at
places of `own`. -/
structure Changed (own : Place → Prop) (before after : Disk) : Prop where
  here : after.here = before.here
  stays : ∀ place node, before.node? place = some node → after.node? place = some node ∨
    own place ∧ ∃ old new, node = .file old ∧ after.node? place = some (.file new)
  fresh : ∀ place, before.node? place = none → after.node? place = none ∨
    after.node? place = some .folder ∨ own place ∧ ∃ new, after.node? place = some (.file new)

namespace Changed

variable {own wider : Place → Prop} {before middle after : Disk} {place : Place}

theorem refl (disk : Disk) : Changed own disk disk where
  here := rfl
  stays _ _ found := Or.inl found
  fresh _ absent := Or.inl absent

theorem folder (changed : Changed own before after)
    (found : before.node? place = some .folder) : after.node? place = some .folder := by
  rcases changed.stays place _ found with same | ⟨_, old, _, isFile, _⟩
  · exact same
  · cases isFile

theorem full (changed : Changed own before after)
    (found : before.node? place = some .full) : after.node? place = some .full := by
  rcases changed.stays place _ found with same | ⟨_, old, _, isFile, _⟩
  · exact same
  · cases isFile

-- A file stays a file, whoever writes to it.
theorem file {bytes : Bytes} (changed : Changed own before after)
    (found : before.node? place = some (.file bytes)) :
    ∃ later, after.node? place = some (.file later) := by
  rcases changed.stays place _ found with same | ⟨_, _, new, _, rewritten⟩
  · exact ⟨bytes, same⟩
  · exact ⟨new, rewritten⟩

-- What is at a place of somebody else stays as it is.
theorem other {node : Node} (changed : Changed own before after) (foreign : ¬ own place)
    (found : before.node? place = some node) : after.node? place = some node := by
  rcases changed.stays place node found with same | ⟨mine, _⟩
  · exact same
  · exact absurd mine foreign

theorem trans (first : Changed own before middle) (second : Changed own middle after) :
    Changed own before after where
  here := second.here.trans first.here
  stays place node found := by
    rcases first.stays place node found with same | ⟨mine, old, new, isFile, rewritten⟩
    · exact second.stays place node same
    · obtain ⟨later, left⟩ := second.file rewritten
      exact Or.inr ⟨mine, old, later, isFile, left⟩
  fresh place absent := by
    rcases first.fresh place absent with still | folder | ⟨mine, new, made⟩
    · exact second.fresh place still
    · exact Or.inr (Or.inl (second.folder folder))
    · exact Or.inr (Or.inr ⟨mine, second.file made⟩)

theorem mono (changed : Changed own before after) (wide : ∀ place, own place → wider place) :
    Changed wider before after where
  here := changed.here
  stays place node found :=
    (changed.stays place node found).imp_right fun ⟨mine, rest⟩ => ⟨wide place mine, rest⟩
  fresh place absent :=
    (changed.fresh place absent).imp_right fun later =>
      later.imp_right fun ⟨mine, rest⟩ => ⟨wide place mine, rest⟩

-- A device was there before, for nothing else becomes one.
theorem was_full (changed : Changed own before after) (found : after.node? place = some .full) :
    before.node? place = some .full := by
  cases there : before.node? place with
  | none => rcases changed.fresh place there with none | folder | ⟨_, _, file⟩ <;> simp_all
  | some node =>
      rcases changed.stays place node there with same | ⟨_, _, _, _, file⟩
      · rw [← same, found]
      · rw [found] at file
        cases file

-- A device takes no byte, so whoever owns nothing but devices rewrites nothing.
theorem onDevices (changed : Changed own before after)
    (devices : ∀ place, own place → before.node? place = some .full) :
    Changed (fun _ => False) before after where
  here := changed.here
  stays place node found := by
    rcases changed.stays place node found with same | ⟨mine, old, _, rfl, _⟩
    · exact Or.inl same
    · rw [devices place mine] at found
      cases found
  fresh place absent := by
    rcases changed.fresh place absent with still | folder | ⟨mine, _⟩
    · exact Or.inl still
    · exact Or.inr (Or.inl folder)
    · rw [devices place mine] at absent
      cases absent

theorem put_folder {disk : Disk} (absent : disk.node? place = none) :
    Changed own disk (disk.put place .folder) := by
  have below : place ≠ [] := ne_root disk (by simp [absent])
  refine ⟨rfl, fun other node found => ?_, fun other missing => ?_⟩
  · have different : other ≠ place := by
      rintro rfl
      simp [absent] at found
    rw [node?_put disk place other .folder below, if_neg different]
    exact Or.inl found
  · by_cases same : other = place
    · subst same
      exact Or.inr (Or.inl (node?_put_self disk .folder below))
    · rw [node?_put disk place other .folder below, if_neg same]
      exact Or.inl missing

theorem put_file {disk : Disk} {bytes : Bytes} (mine : own place)
    (free : disk.node? place = none ∨ ∃ old, disk.node? place = some (.file old)) :
    Changed own disk (disk.put place (.file bytes)) := by
  have below : place ≠ [] :=
    ne_root disk (by rcases free with absent | ⟨old, isFile⟩ <;> simp [*])
  refine ⟨rfl, fun other node found => ?_, fun other missing => ?_⟩
  · by_cases same : other = place
    · subst same
      rcases free with absent | ⟨old, isFile⟩
      · simp [absent] at found
      · rw [isFile] at found
        cases found
        exact Or.inr ⟨mine, old, bytes, rfl, node?_put_self disk _ below⟩
    · rw [node?_put disk place other _ below, if_neg same]
      exact Or.inl found
  · by_cases same : other = place
    · subst same
      exact Or.inr (Or.inr ⟨mine, bytes, node?_put_self disk _ below⟩)
    · rw [node?_put disk place other _ below, if_neg same]
      exact Or.inl missing

/-! A path goes on leading where it led, for the folders around it stay. -/

theorem enter (changed : Changed own before after) {place next : Place} {step : String}
    (entered : before.enter place step = .ok next) : after.enter place step = .ok next := by
  unfold Disk.enter at entered ⊢
  split
  · next dot => rwa [if_pos dot] at entered
  · next noDot =>
    rw [if_neg noDot] at entered
    split
    · next dots => rwa [if_pos dots] at entered
    · next noDots =>
      rw [if_neg noDots] at entered
      split at entered
      · cases entered
      · cases entered
      · next looked =>
        obtain ⟨found, short⟩ := look_ok looked
        rw [look_fits short, changed.folder found]
        exact entered
      · cases entered

theorem walk (changed : Changed own before after) {place last : Place} {steps : List String}
    (walked : before.walk place steps = .ok last) : after.walk place steps = .ok last := by
  induction steps generalizing place with
  | nil => exact walked
  | cons step rest ih =>
      rw [Disk.walk] at walked ⊢
      split at walked
      · next next entered =>
        rw [changed.enter entered]
        exact ih walked
      · cases walked

theorem locate (changed : Changed own before after) {path : Path} {place : Place}
    (located : before.locate path = .ok place) : after.locate path = .ok place := by
  unfold Disk.locate at located ⊢
  rw [changed.here]
  split at located
  · cases located
  split at located
  · cases located
  next noNul short =>
  rw [if_neg noNul, if_neg short]
  split at located
  · next bare => exact located
  · next last ends =>
    split at located
    · cases located
    · next folder walked =>
      rw [changed.walk walked]
      exact located

end Changed

open Text

variable {own : Place → Prop} {disk after : Disk} {path : Path} {place : Place}

theorem changed_makeFolder (disk : Disk) (path : Path) : Changed own disk (disk.makeFolder path).2 := by
  unfold makeFolder
  split
  · exact Changed.refl disk
  · split
    · exact Changed.refl disk
    · exact Changed.refl disk
    · next looked => exact Changed.put_folder (look_ok looked).1

theorem changed_ensureFolder (disk : Disk) (path : Path) :
    Changed own disk (disk.ensureFolder path).2 := by
  unfold ensureFolder
  split
  · split <;> exact Changed.refl disk
  · exact changed_makeFolder disk path

theorem changed_ensureFolders (disk : Disk) (rooted : Bool) (steps : List String) :
    Changed own disk (disk.ensureFolders rooted steps).2 := by
  induction steps with
  | nil => exact Changed.refl disk
  | cons last outer ih =>
      rw [ensureFolders]
      split
      · next made outcome =>
        have change : Changed own disk (disk.makeFolder ⟨rooted, (last :: outer).reverse, false, 0⟩).2 :=
          changed_makeFolder disk _
        rwa [outcome] at change
      · split
        · next around outcome =>
          rw [outcome] at ih
          exact ih.trans (changed_ensureFolder around _)
        · exact ih
      · split <;> exact Changed.refl disk

theorem changed_ensureParent (disk : Disk) (path : Path) :
    Changed own disk (disk.ensureParent path).2 := by
  unfold ensureParent
  split
  · exact Changed.refl disk
  · exact changed_ensureFolders disk _ _

theorem changed_create (disk : Disk) (path : Path) :
    Changed (· = path.place disk.here) disk (disk.create path).2 := by
  unfold create
  split
  · exact Changed.refl disk
  · next located =>
    have same := locate_ok located
    split
    · exact Changed.refl disk
    · split
      · exact Changed.refl disk
      · exact Changed.refl disk
      · exact Changed.refl disk
      · next found noFolder noDevice looked =>
        refine Changed.put_file ?_ ?_
        · exact same
        rw [(look_ok looked).1]
        rcases found with _ | (_ | bytes | _)
        · exact Or.inl rfl
        · exact absurd rfl noFolder
        · exact Or.inr ⟨bytes, rfl⟩
        · exact absurd rfl noDevice

theorem changed_write {offset : Nat} {piece : Bytes} (written : disk.write place offset piece = .ok after) :
    Changed (· = place) disk after := by
  unfold write at written
  split at written
  · next old isFile =>
    cases written
    exact Changed.put_file rfl (Or.inr ⟨old, isFile⟩)
  · cases written

/-- The path leads to a file at the place, whatever its contents, or to a device. -/
def Leads (disk : Disk) (path : Path) (place : Place) : Prop :=
  disk.locate path = .ok place ∧ path.slashed = false ∧
    (place.getLast?.getD "").utf8ByteSize ≤ greatestName

theorem Leads.changed (leads : disk.Leads path place) (changed : Changed own disk after) :
    after.Leads path place :=
  ⟨changed.locate leads.1, leads.2⟩

theorem Leads.file?_eq {bytes : Bytes} (leads : disk.Leads path place)
    (isFile : disk.node? place = some (.file bytes)) : disk.file? path = some bytes := by
  obtain ⟨located, noSlash, short⟩ := leads
  simp [file?, find, located, look_fits short, isFile, noSlash]

theorem find_ok {node : Node} (found : disk.find path = .ok (place, node)) :
    disk.node? place = some node := by
  unfold find at found
  split at found
  · cases found
  · split at found
    · cases found
    · cases found
    · next looked =>
      cases found
      exact (look_ok looked).1
    · next looked =>
      split at found
      · cases found
      · cases found
        exact (look_ok looked).1

theorem create_ok (created : disk.create path = (.ok place, after)) :
    place = path.place disk.here ∧ after.Leads path place ∧
      (after.node? place = some (.file []) ∨ after.node? place = some .full) := by
  have changed := changed_create disk path
  rw [created] at changed
  unfold create at created
  split at created
  · cases created
  · next located =>
    split at created
    · cases created
    · next noSlash =>
      simp only [Bool.not_eq_true] at noSlash
      split at created
      · cases created
      · cases created
      · next looked =>
        cases created
        obtain ⟨found, short⟩ := look_ok looked
        exact ⟨locate_ok located, ⟨located, noSlash, short⟩, Or.inr found⟩
      · next found noFolder noDevice looked =>
        cases created
        obtain ⟨isNode, short⟩ := look_ok looked
        have below : place ≠ [] := by
          apply ne_root disk
          rw [isNode]
          exact noFolder
        exact ⟨locate_ok located, ⟨changed.locate located, noSlash, short⟩,
          Or.inl (node?_put_self disk _ below)⟩

theorem create_error {e : IoError} (failed : disk.create path = (.error e, after)) :
    after = disk := by
  unfold create at failed
  split at failed
  · cases failed
    rfl
  · split at failed
    · cases failed
      rfl
    · split at failed <;> cases failed <;> rfl

theorem write_ok {offset : Nat} {piece : Bytes}
    (written : disk.write place offset piece = .ok after) :
    ∃ bytes, disk.node? place = some (.file bytes) ∧
      after.node? place = some (.file (overwrite bytes offset piece)) := by
  unfold write at written
  split at written
  · next bytes isFile =>
    cases written
    exact ⟨bytes, isFile, node?_put_self disk _ (ne_root disk (by simp [isFile]))⟩
  · cases written

-- Nothing but a file takes bytes.
theorem write_file {offset : Nat} {bytes : Bytes} (piece : Bytes)
    (isFile : disk.node? place = some (.file bytes)) :
    disk.write place offset piece = .ok (disk.put place (.file (overwrite bytes offset piece))) := by
  simp [write, isFile]

-- Writing changes what is in a file, but not where the files are.
theorem isFile_write {offset : Nat} {piece : Bytes}
    (written : disk.write place offset piece = .ok after) (other : Place) :
    (∃ bytes, after.node? other = some (.file bytes)) ↔
      ∃ bytes, disk.node? other = some (.file bytes) := by
  unfold write at written
  split at written
  · next bytes isFile =>
    cases written
    rw [node?_put disk place other _ (ne_root disk (by simp [isFile]))]
    by_cases same : other = place
    · simp [same, isFile]
    · rw [if_neg same]
  · cases written

theorem overwrite_end (bytes piece : Bytes) : overwrite bytes bytes.length piece = bytes ++ piece := by
  simp [overwrite]

end Disk

end MoteCapture

import Mathlib.Data.List.Induction
import MoteCapture.Proofs.Options.Field
import MoteCapture.Proofs.Options.Overlay

/-!
Which layer says what a field is. The later one wins, field by field; only a layout that is written as
a map is joined with the maps below it.
-/

namespace MoteCapture

open Value

namespace Options

def Field.last? (field : Field) (layers : List Value) : Option Value :=
  (layers.filterMap field.at?).getLast?

def Field.joined? (field : Field) (layers : List Value) : Option Value :=
  layers.foldl (fun low layer => overlay? (field.at? layer) low) none

/-- The layers that options are loaded from, lowest first: the standard options, what is decoded from
the files that are there, and the variables. The sections are maps in all of them. -/
structure Stack (disk : Disk) (vars : List (String × String)) (path : Option String)
    (layers : List Value) : Prop where
  decoded : ∃ files, fileLayers disk vars path = .ok files ∧
    layers = Options.standard.tree .direct :: files ++ [Environment.value vars]
  sections : ∀ layer ∈ layers, layer.SectionsAreMaps

variable {disk : Disk} {vars : List (String × String)} {path : Option String}
  {layers files : List Value} {field : Field} {value high : Value} {low : Option Value}

theorem last?_append (field : Field) (layers : List Value) (layer : Value) :
    field.last? (layers ++ [layer]) = (field.at? layer).or (field.last? layers) := by
  rw [Field.last?, List.filterMap_append, List.getLast?_append]
  cases found : field.at? layer <;> simp [found, Field.last?]

theorem joined?_append (field : Field) (layers : List Value) (layer : Value) :
    field.joined? (layers ++ [layer]) = overlay? (field.at? layer) (field.joined? layers) := by
  rw [Field.joined?, List.foldl_append]
  rfl

-- Only maps are joined, and what comes of it is a map.
theorem overlay?_eq_some_iff (single : ¬ value.IsMap) :
    overlay? (some high) low = some value ↔ high = value := by
  cases low with
  | none => simp [overlay?]
  | some old =>
      by_cases both : high.IsMap ∧ old.IsMap
      · have joined : ¬ overlay high old = value := fun same =>
          single (same ▸ isMap_overlay both.1 both.2)
        have upper : ¬ high = value := fun same => single (same ▸ both.1)
        simp [overlay?, joined, upper]
      · simp [overlay?, overlay_eq both]

theorem joined?_eq_none_iff (field : Field) (layers : List Value) :
    field.joined? layers = none ↔ ∀ layer ∈ layers, field.at? layer = none := by
  induction layers using List.reverseRecOn with
  | nil => simp [Field.joined?]
  | append_singleton layers layer ih =>
      rw [joined?_append, List.forall_mem_append, List.forall_mem_singleton, ← ih]
      cases field.at? layer with
      | none => simp [overlay?]
      | some high => cases field.joined? layers <;> simp [overlay?]

theorem joined?_eq_iff (single : ¬ value.IsMap) (field : Field) (layers : List Value) :
    field.joined? layers = some value ↔ field.last? layers = some value := by
  induction layers using List.reverseRecOn with
  | nil => rfl
  | append_singleton layers layer ih =>
      rw [joined?_append, last?_append]
      cases field.at? layer with
      | none => exact ih
      | some high => simpa using overlay?_eq_some_iff single

-- No other field can be read from a map.
theorem not_isMap_of_read (other : field ≠ .layout) {content : field.Content}
    (read : field.read value = .ok content) : ¬ value.IsMap := by
  rintro ⟨origin, entries, rfl⟩
  cases field with
  | layout => exact other rfl
  | _ => cases read

theorem held_iff (other : field ≠ .layout) {content : field.Content} :
    (∃ value, field.joined? layers = some value ∧ field.read value = .ok content) ↔
      ∃ value, field.last? layers = some value ∧ field.read value = .ok content :=
  exists_congr fun _ => and_congr_left fun read =>
    joined?_eq_iff (not_isMap_of_read other read) field layers

theorem isLayer_empty (origin : Origin) : IsLayer (.map origin []) where
  keyed := .map .nil (by simp)
  isMap := ⟨_, _, rfl⟩
  sections := fun name _ inner found => by cases found

theorem joined_layers (good : ∀ layer ∈ layers, IsLayer layer) :
    IsLayer (layers.foldl (fun low high => overlay high low) (.map .direct [])) ∧
      ∀ field : Field,
        field.at? (layers.foldl (fun low high => overlay high low) (.map .direct [])) =
          field.joined? layers := by
  induction layers using List.reverseRecOn with
  | nil => exact ⟨isLayer_empty .direct, fun field => rfl⟩
  | append_singleton layers layer ih =>
      obtain ⟨lower, told⟩ := ih fun other member => good other (List.mem_append_left _ member)
      have upper := good layer (List.mem_append_right _ List.mem_cons_self)
      simp only [List.foldl_append, List.foldl_cons, List.foldl_nil, joined?_append]
      exact ⟨upper.overlay lower, fun field => by rw [at?_overlay upper lower, told]⟩

theorem checked_eq_ok_iff {options loaded : Options} :
    options.checked = .ok loaded ↔ options = loaded ∧ options.check = [] := by
  rw [checked]
  split
  · next clean => simpa using fun _ => List.isEmpty_iff.mp clean
  · next complaints =>
    have broken : options.check ≠ [] := fun none => complaints (List.isEmpty_iff.mpr none)
    simp [broken]

theorem ofLayers_eq_ok_iff (good : ∀ layer ∈ layers, IsLayer layer) {options : Options} :
    ofLayers layers = .ok options ↔
      (∀ field : Field, Says field.read (field.content .standard) (field.joined? layers)
        (field.content options)) ∧ options.check = [] := by
  obtain ⟨whole, told⟩ := joined_layers good
  simp only [← told, ← ofValue_eq_ok_iff whole.isMap whole.sections]
  rw [ofLayers]
  cases ofValue false (layers.foldl (fun low high => overlay high low) (.map .direct [])) with
  | error misfit => simp
  | ok read =>
      simp only [checked_eq_ok_iff, Except.ok.injEq]
      constructor
      · rintro ⟨rfl, clean⟩
        exact ⟨rfl, clean⟩
      · rintro ⟨rfl, clean⟩
        exact ⟨rfl, clean⟩

theorem ofLayers_congr {others : List Value} (good : ∀ layer ∈ layers, IsLayer layer)
    (otherGood : ∀ layer ∈ others, IsLayer layer)
    (same : ∀ field : Field, field.joined? others = field.joined? layers) :
    ofLayers others = ofLayers layers := by
  obtain ⟨whole, told⟩ := joined_layers good
  obtain ⟨otherWhole, otherTold⟩ := joined_layers otherGood
  have read := ofValue_congr otherWhole.isMap otherWhole.sections whole.isMap whole.sections
    fun field => by rw [otherTold, told, same]
  rw [ofLayers, ofLayers, read]

theorem keyed_fileLayer {text : String} {layer : Value} (read : fileLayer disk text = .ok layer) :
    layer.Keyed ∧ layer.IsMap := by
  rw [fileLayer] at read
  split at read
  · cases read
    exact ⟨.map .nil (by simp), _, _, rfl⟩
  · dsimp only at read
    split at read
    · next value decoded =>
      cases read
      exact keyed_read decoded
    · cases read

theorem keyed_optionalLayer {text : String} (read : optionalLayer disk text = .ok files) :
    ∀ layer ∈ files, layer.Keyed ∧ layer.IsMap := by
  rw [optionalLayer] at read
  split at read
  · cases found : fileLayer disk text with
    | error fault =>
        rw [found] at read
        cases read
    | ok layer =>
        rw [found] at read
        cases read
        simpa using keyed_fileLayer found
  · cases read
    simp

theorem keyed_fileLayers (read : fileLayers disk vars path = .ok files) :
    ∀ layer ∈ files, layer.Keyed ∧ layer.IsMap := by
  cases path with
  | some text =>
      rw [fileLayers] at read
      split at read
      · next there =>
        have optional : optionalLayer disk text = .ok files := by rw [optionalLayer, if_pos there, read]
        exact keyed_optionalLayer optional
      · cases read
  | none =>
      simp only [fileLayers, bind_eq_ok_iff] at read
      obtain ⟨base, lower, upper⟩ := read
      intro layer member
      split at upper
      · obtain ⟨run, found, same⟩ := bind_eq_ok_iff.mp upper
        cases same
        exact (List.mem_append.mp member).elim (keyed_optionalLayer lower layer)
          (keyed_optionalLayer found layer)
      · cases upper
        rw [List.append_nil] at member
        exact keyed_optionalLayer lower layer member

theorem has_of_file? {path : Path} {bytes : Text.Bytes} (there : disk.file? path = some bytes) :
    disk.has path = true := by
  rw [Disk.file?] at there
  rw [Disk.has]
  split at there
  · next found => rw [found]
  · cases there

theorem exists_find_of_file? {path : Path} {bytes : Text.Bytes}
    (there : disk.file? path = some bytes) : ∃ folder, find disk path = some (folder, bytes) := by
  rw [find]
  split
  · exact ⟨[], by rw [there]; rfl⟩
  · cases inside : disk.here.reverse with
    | nil =>
        have top : disk.here = [] := List.reverse_eq_nil_iff.mp inside
        refine ⟨[], ?_⟩
        rw [findFrom, ← top, there]
        rfl
    | cons last outer =>
        have here : (last :: outer).reverse = disk.here := by rw [← inside, List.reverse_reverse]
        refine ⟨disk.here, ?_⟩
        rw [findFrom, here, there]

/-- The layer of a file is what is read from it; the file is shown by some path. -/
theorem exists_fileLayer_of_file? {text : String} {bytes : Text.Bytes} {value : Origin → Value}
    (there : disk.file? (.ofString text) = some bytes)
    (read : ∀ origin, Yaml.Document.read origin bytes = .ok (value origin)) :
    ∃ origin, fileLayer disk text = .ok (value origin) := by
  obtain ⟨folder, found⟩ := exists_find_of_file? there
  refine ⟨.file (shownPath disk.here folder text), ?_⟩
  rw [fileLayer, found]
  dsimp only
  rw [read]

theorem exists_optionalLayer_of_file? {text : String} {bytes : Text.Bytes} {value : Origin → Value}
    (there : disk.file? (.ofString text) = some bytes)
    (read : ∀ origin, Yaml.Document.read origin bytes = .ok (value origin)) :
    ∃ origin, optionalLayer disk text = .ok [value origin] := by
  obtain ⟨origin, layer⟩ := exists_fileLayer_of_file? there read
  refine ⟨origin, ?_⟩
  rw [optionalLayer, if_pos (has_of_file? there), layer]
  rfl

/-- Both files are there. -/
theorem exists_fileLayers_of_kind {kind : String} {base run : Text.Bytes} {low high : Origin → Value}
    (named : vars.lookup runVariable = some kind)
    (baseThere : disk.file? (.ofString baseFile) = some base)
    (runThere : disk.file? (.ofString (runFile kind)) = some run)
    (readBase : ∀ origin, Yaml.Document.read origin base = .ok (low origin))
    (readRun : ∀ origin, Yaml.Document.read origin run = .ok (high origin)) :
    ∃ origin other, fileLayers disk vars none = .ok [low origin, high other] := by
  obtain ⟨origin, lower⟩ := exists_optionalLayer_of_file? baseThere readBase
  obtain ⟨other, upper⟩ := exists_optionalLayer_of_file? runThere readRun
  refine ⟨origin, other, ?_⟩
  rw [fileLayers, lower, named]
  dsimp only
  rw [upper]
  rfl

namespace Stack

theorem load_eq (stack : Stack disk vars path layers) : load disk vars path = ofLayers layers := by
  obtain ⟨files, decoded, rfl⟩ := stack.decoded
  rw [load, decoded]
  rfl

theorem isLayer (stack : Stack disk vars path layers) : ∀ layer ∈ layers, IsLayer layer := by
  intro layer member
  have sections := stack.sections layer member
  obtain ⟨files, decoded, rfl⟩ := stack.decoded
  simp only [List.cons_append, List.mem_cons, List.mem_append, List.not_mem_nil, or_false] at member
  rcases member with rfl | inFiles | rfl
  · exact isLayer_tree .direct .standard
  · obtain ⟨keyed, isMap⟩ := keyed_fileLayers decoded layer inFiles
    exact ⟨keyed, isMap, sections⟩
  · obtain ⟨keyed, isMap⟩ := Environment.keyed_value vars
    exact ⟨keyed, isMap, sections⟩

/-- The lowest layer says every field. -/
theorem joined?_ne_none (stack : Stack disk vars path layers) (field : Field) :
    field.joined? layers ≠ none := by
  intro silent
  obtain ⟨value, told, -, -⟩ := at?_tree .direct .standard field
  obtain ⟨files, -, rfl⟩ := stack.decoded
  rw [(joined?_eq_none_iff field _).mp silent _ List.mem_cons_self] at told
  cases told

theorem load_eq_ok_iff (stack : Stack disk vars path layers) {options : Options} :
    load disk vars path = .ok options ↔
      (∀ field : Field, ∃ value, field.joined? layers = some value ∧
        field.read value = .ok (field.content options)) ∧ options.check = [] := by
  rw [stack.load_eq, ofLayers_eq_ok_iff stack.isLayer]
  refine and_congr_left' (forall_congr' fun field => ?_)
  cases found : field.joined? layers with
  | none => exact absurd found (stack.joined?_ne_none field)
  | some value => simp [Says]

/-- The last layer counts for every field but the layout. -/
theorem load_eq_ok_iff_last (stack : Stack disk vars path layers) {options : Options} :
    load disk vars path = .ok options ↔
      (∀ field : Field, field ≠ .layout → ∃ value, field.last? layers = some value ∧
        field.read value = .ok (field.content options)) ∧
      (∃ value, Field.layout.joined? layers = some value ∧
        readLayout false value = .ok options.capture.layout) ∧
      options.check = [] := by
  rw [stack.load_eq_ok_iff]
  constructor
  · rintro ⟨held, clean⟩
    exact ⟨fun field other => (held_iff other).mp (held field), held .layout, clean⟩
  · rintro ⟨held, layout, clean⟩
    refine ⟨fun field => ?_, clean⟩
    by_cases other : field = .layout
    · exact other ▸ layout
    · exact (held_iff other).mpr (held field other)

theorem ascending_joined (stack : Stack disk vars path layers) {origin : Origin}
    {entries : List (String × Value)} (joined : field.joined? layers = some (.map origin entries)) :
    Ascending entries := by
  obtain ⟨whole, told⟩ := joined_layers stack.isLayer
  exact (keyed_map_iff.mp (whole.keyed_at? ((told field).trans joined))).1

section Others

variable {disk' : Disk} {vars' : List (String × String)} {path' : Option String}
  {layers' : List Value} {options options' : Options}

/-- Nothing but the fields counts. -/
theorem load_congr (stack : Stack disk vars path layers) (other : Stack disk' vars' path' layers')
    (same : ∀ field : Field, field.joined? layers' = field.joined? layers) :
    load disk' vars' path' = load disk vars path := by
  rw [stack.load_eq, other.load_eq, ofLayers_congr stack.isLayer other.isLayer same]

/-- For a field nothing but what the layers say of it counts. -/
theorem content_congr (stack : Stack disk vars path layers)
    (other : Stack disk' vars' path' layers')
    (same : field.joined? layers' = field.joined? layers)
    (loaded : load disk vars path = .ok options) (loaded' : load disk' vars' path' = .ok options') :
    field.content options' = field.content options := by
  obtain ⟨value, told, read⟩ := (stack.load_eq_ok_iff.mp loaded).1 field
  obtain ⟨value', told', read'⟩ := (other.load_eq_ok_iff.mp loaded').1 field
  rw [same, told] at told'
  cases told'
  exact Except.ok.inj (read'.symm.trans read)

end Others

end Stack

/-! Keys that are not known. -/

def leadsToSection (entry : String × String) : Bool :=
  match Environment.keys? entry.1 with
  | some (name :: _) => ["capture", "telemetry"].contains name
  | _ => false

theorem environment_value_append (vars : List (String × String)) (entry : String × String) :
    Environment.value (vars ++ [entry]) =
      match Environment.keys? entry.1 with
      | some keys =>
          overlay (nest .environment keys (Environment.readText entry.2)) (Environment.value vars)
      | none => Environment.value vars := by
  rw [Environment.value, List.foldl_append]
  rfl

theorem member?_sections (vars : List (String × String)) {name : String}
    (known : name ∈ ["capture", "telemetry"]) :
    (Environment.value (vars.filter leadsToSection)).member? name =
      (Environment.value vars).member? name := by
  induction vars using List.reverseRecOn with
  | nil => rfl
  | append_singleton vars entry ih =>
      rw [List.filter_append, environment_value_append]
      cases found : Environment.keys? entry.1 with
      | none => simpa [leadsToSection, found] using ih
      | some keys =>
          obtain ⟨first, rest, rfl⟩ := List.exists_cons_of_ne_nil (Environment.keys?_ne_nil found)
          have keyed : (nest .environment (first :: rest) (Environment.readText entry.2)).Keyed :=
            keyed_nest (first :: rest) (Environment.keyed_readText entry.2)
          have map := Environment.isMap_nest (List.cons_ne_nil first rest)
            (Environment.readText entry.2)
          dsimp only
          rw [member?_overlay keyed map (Environment.keyed_value vars).2]
          by_cases inside : first ∈ ["capture", "telemetry"]
          · have kept : [entry].filter leadsToSection = [entry] := by
              simpa [leadsToSection, found] using inside
            rw [kept, environment_value_append, found]
            dsimp only
            rw [member?_overlay keyed map (Environment.keyed_value _).2, ih]
          · have dropped : [entry].filter leadsToSection = [] := by
              simpa [leadsToSection, found] using inside
            have other : name ≠ first := fun same => inside (same ▸ known)
            have silent : (nest .environment (first :: rest) (Environment.readText entry.2)).member?
                name = none := by
              simp [nest, member?, lookup_cons_ite, other]
            rw [dropped, List.append_nil, ih, silent]
            rfl

theorem at?_sections (field : Field) (vars : List (String × String)) :
    field.at? (Environment.value (vars.filter leadsToSection)) =
      field.at? (Environment.value vars) := by
  rw [Field.at?, Field.at?, member?_sections vars field.sectionKey_mem]

/-- If a file is named, the variables that lead into no section can be left out. -/
theorem Stack.without_others {text : String} (stack : Stack disk vars (some text) layers) :
    ∃ others, Stack disk (vars.filter leadsToSection) (some text) others ∧
      ∀ field : Field, field.joined? others = field.joined? layers := by
  obtain ⟨files, decoded, rfl⟩ := stack.decoded
  refine ⟨_, ⟨⟨files, decoded, rfl⟩, ?_⟩, ?_⟩
  · intro layer member
    rcases List.mem_append.mp member with low | high
    · exact stack.sections layer (List.mem_append_left _ low)
    · rw [List.mem_singleton] at high
      subst high
      intro name known inner found
      rw [member?_sections vars known] at found
      exact stack.sections _ (List.mem_append_right _ List.mem_cons_self) name known inner found
  · intro field
    rw [joined?_append, joined?_append, at?_sections]

theorem Stack.load_filter {text : String} (stack : Stack disk vars (some text) layers) :
    load disk (vars.filter leadsToSection) (some text) = load disk vars (some text) := by
  obtain ⟨others, other, same⟩ := stack.without_others
  exact stack.load_congr other same

/-- If a file is named, no other one is looked at. -/
theorem load_named_congr {disk' : Disk} {text : String}
    (there : disk'.has (.ofString text) = disk.has (.ofString text))
    (same : fileLayer disk' text = fileLayer disk text) (vars : List (String × String)) :
    load disk' vars (some text) = load disk vars (some text) := by
  rw [load, load, fileLayers, fileLayers, there, same]

end Options

end MoteCapture

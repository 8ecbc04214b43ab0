import MoteCapture.Options.Written
import MoteCapture.Proofs.Options.Check
import MoteCapture.Proofs.Options.Layers
import MoteCapture.Proofs.Yaml.Document

/-!
What options are loaded from their layers. The last layer that says a field wins. Where two layers write
the layout as a map, the maps are joined instead. Options that keep the rules are loaded back from the
document that is written for them, whatever their texts are.
-/

namespace MoteCapture

open Value

namespace Options

variable {disk : Disk} {vars : List (String × String)} {path : Option String} {layers : List Value}

/-- A field has the value that the last layer gives it, if that value fits and all rules are kept; the
same holds of a layout unless two layers write it as a map, of which the entries are joined then. No
other key of a layer makes a difference, nor does any file but the one that is named. -/
theorem later_layers_win (stack : Stack disk vars path layers) :
    (∀ options, load disk vars path = .ok options ↔
      (∀ field : Field, field ≠ .layout → ∃ value, field.last? layers = some value ∧
        field.read value = .ok (field.content options)) ∧
      (∃ value, Field.layout.joined? layers = some value ∧
        readLayout false value = .ok options.capture.layout) ∧
      options.check = []) ∧
    (∀ value, Field.layout.last? layers = some value → ¬ value.IsMap →
      Field.layout.joined? layers = some value) ∧
    (∀ origin entries, Field.layout.joined? layers = some (.map origin entries) →
      Ascending entries) ∧
    (∀ disk' vars' path' layers', Stack disk' vars' path' layers' →
      ((∀ field : Field, field.joined? layers' = field.joined? layers) →
        load disk' vars' path' = load disk vars path) ∧
      ∀ field : Field, field.joined? layers' = field.joined? layers →
        ∀ options options', load disk vars path = .ok options →
          load disk' vars' path' = .ok options' → field.content options' = field.content options) ∧
    (∀ text, path = some text →
      load disk (vars.filter leadsToSection) path = load disk vars path ∧
      ∀ disk' : Disk, disk'.has (.ofString text) = disk.has (.ofString text) →
        fileLayer disk' text = fileLayer disk text →
          load disk' vars path = load disk vars path) := by
  refine ⟨fun options => stack.load_eq_ok_iff_last,
    fun value last single => (joined?_eq_iff single .layout layers).mpr last,
    fun origin entries joined => stack.ascending_joined joined,
    fun disk' vars' path' layers' other => ⟨stack.load_congr other, ?_⟩, ?_⟩
  · intro field same options options' loaded loaded'
    exact stack.content_congr other same loaded loaded'
  · rintro text rfl
    exact ⟨stack.load_filter, fun disk' there same => load_named_congr there same vars⟩

def layoutText (layout : RowLayout) : String :=
  "capture:\n  row_format:\n    " ++ layout.name ++ ":\n"

def layoutLayer (origin : Origin) (layout : RowLayout) : Value :=
  .map origin [("capture", .map origin
    [("row_format", .map origin [(layout.name, .scalar origin .unit)])])]

def layoutTokens (layout : RowLayout) : List Yaml.Token :=
  [.blockMappingStart, .key, .scalar true "capture".toList, .value, .blockMappingStart, .key,
    .scalar true "row_format".toList, .value, .blockMappingStart, .key,
    .scalar true layout.name.toList, .value, .blockEnd, .blockEnd, .blockEnd]

def layoutNode (layout : RowLayout) : Yaml.Node :=
  .map .none [(.scalar .none true "capture".toList, .map .none
    [(.scalar .none true "row_format".toList, .map .none
      [(.scalar .none true layout.name.toList, .empty)])])]

theorem ofText_layoutText (layout : RowLayout) :
    Yaml.Token.ofText (layoutText layout).toList = .ok (layoutTokens layout) := by
  have read : (Yaml.Token.ofText (layoutText layout).toList).toOption =
      some (layoutTokens layout) := by
    cases layout <;> decide +kernel
  cases lexed : Yaml.Token.ofText (layoutText layout).toList with
  | error => simp [lexed, Except.toOption] at read
  | ok tokens => simpa [lexed, Except.toOption] using read

section Builder

open Yaml.Document Builder

theorem root_layoutNode (origin : Origin) (anchored : List (Nat × Yaml.Node)) (layout : RowLayout) :
    root origin anchored (layoutNode layout) = pure (layoutLayer origin layout) := by
  have name : layout.name ≠ placeKey ∧ layout.name ≠ wrappedKey := by
    cases layout <;> decide +kernel
  have inner : value origin anchored (greatestDepth - 1) (.map .none
      [(.scalar .none true "row_format".toList, .map .none
        [(.scalar .none true layout.name.toList, .empty)])]) =
      pure (.map origin [("row_format", .map origin [(layout.name, .scalar origin .unit)])]) :=
    value_single (by decide +kernel) (value_single name (value_scalar true []))
  exact root_single inner

end Builder

theorem read_layoutText (origin : Origin) (layout : RowLayout) :
    Yaml.Document.read origin (Text.encode (layoutText layout)) =
      .ok (layoutLayer origin layout) := by
  have parsed : Yaml.Node.ofTokens (layoutTokens layout) = .ok (layoutNode layout) := rfl
  exact Yaml.Document.read_encode (ofText_layoutText layout) parsed (root_layoutNode origin _ layout)

/-- Both files write the layout as a map, and a variable gives another field. -/
def trialDisk : Disk where
  nodes :=
    [(["config"], .folder),
      (["config", "senselog.yaml"], .file (Text.encode (layoutText .messageOnly))),
      (["config", "trial.yaml"], .file (Text.encode (layoutText .timePrefixed)))]
  here := []

def trialVars : List (String × String) :=
  [("SENSELOG_ENV", "trial"), ("SENSELOG_CAPTURE__TIMEOUT_MS", "30")]

def trialLayers (base run : Origin) : List Value :=
  [standard.tree .direct, layoutLayer base .messageOnly, layoutLayer run .timePrefixed,
    .map .environment
      [("capture", .map .environment [("timeout_ms", .scalar .environment (.unsigned 30))]),
        ("env", .scalar .environment (.text "trial"))]]

def trialOptions : Options :=
  { standard with capture := { CaptureOptions.standard with layout := .messageOnly, timeoutMs := 30 } }

theorem environment_value_trialVars : Environment.value trialVars = .map .environment
    [("capture", .map .environment [("timeout_ms", .scalar .environment (.unsigned 30))]),
      ("env", .scalar .environment (.text "trial"))] := by
  have kind : Environment.keys? "SENSELOG_ENV" = some ["env"] := by decide +kernel
  have timeout : Environment.keys? "SENSELOG_CAPTURE__TIMEOUT_MS" =
    some ["capture", "timeout_ms"] := by decide +kernel
  have name : Environment.readText "trial" = .scalar .environment (.text "trial") := rfl
  have number : Environment.readText "30" = .scalar .environment (.unsigned 30) := rfl
  simp only [trialVars, Environment.value, kind, timeout, name, number, nest, overlay, entriesOver,
    setEntry, lookup_cons_ite, List.foldl_cons, List.foldl_nil, List.foldr_cons, List.foldr_nil,
    List.lookup_nil, String.reduceLT, String.reduceBEq, Bool.false_eq_true, reduceIte]

theorem exists_stack_trial :
    ∃ base run, Stack trialDisk trialVars none (trialLayers base run) := by
  obtain ⟨base, run, decoded⟩ : ∃ base run, fileLayers trialDisk trialVars none =
      .ok [layoutLayer base .messageOnly, layoutLayer run .timePrefixed] :=
    exists_fileLayers_of_kind (show trialVars.lookup runVariable = some "trial" from rfl) rfl rfl
      (read_layoutText · .messageOnly) (read_layoutText · .timePrefixed)
  refine ⟨base, run, ⟨_, decoded, by rw [environment_value_trialVars]; rfl⟩, ?_⟩
  intro layer member name known inner found
  simp only [trialLayers, List.mem_cons, List.not_mem_nil, or_false] at member known
  rcases member with rfl | rfl | rfl | rfl <;> rcases known with rfl | rfl <;> cases found <;>
    exact ⟨_, _, rfl⟩

theorem held_trial (base run : Origin) (field : Field) :
    ∃ value, field.joined? (trialLayers base run) = some value ∧
      field.read value = .ok (field.content trialOptions) := by
  cases field with
  | layout =>
      refine ⟨.map run [("message-only", .scalar base .unit), ("time-prefixed", .scalar run .unit)],
        ?_, rfl⟩
      change some (overlay (.map run [("time-prefixed", .scalar run .unit)])
        (overlay (.map base [("message-only", .scalar base .unit)])
          (.scalar .direct (.text "time-prefixed")))) = _
      simp only [overlay, entriesOver, setEntry, lookup_cons_ite, List.lookup_nil, String.reduceLT,
        String.reduceBEq, Bool.false_eq_true, reduceIte]
  | timeoutMs =>
      have read : Field.timeoutMs.read (.scalar .environment (.unsigned 30)) =
        .ok (Field.timeoutMs.content trialOptions) := rfl
      have single := not_isMap_of_read (by decide) read
      exact ⟨_, (joined?_eq_iff single .timeoutMs _).mpr rfl, read⟩
  | _ => exact ⟨_, rfl, rfl⟩

theorem variable_over_joined_layouts :
    ∃ layers, Stack trialDisk trialVars none layers ∧
      load trialDisk trialVars none = .ok trialOptions := by
  obtain ⟨base, run, stack⟩ := exists_stack_trial
  refine ⟨_, stack, ((later_layers_win stack).1 trialOptions).mpr
    ⟨fun field other => ?_, held_trial base run .layout, by decide +kernel⟩⟩
  exact (held_iff other).mp (held_trial base run field)

/-- A layout that is written as a map is not always that of the last layer that says it. -/
theorem last_layout_loses :
    ¬ ∀ disk vars path layers options, Stack disk vars path layers →
      load disk vars path = .ok options → ∀ field : Field, ∃ value,
        field.last? layers = some value ∧ field.read value = .ok (field.content options) := by
  intro wins
  obtain ⟨base, run, stack⟩ := exists_stack_trial
  have loaded : load trialDisk trialVars none = .ok trialOptions :=
    stack.load_eq_ok_iff.mpr ⟨held_trial base run, by decide +kernel⟩
  obtain ⟨value, last, read⟩ := wins _ _ _ _ _ stack loaded .layout
  cases last
  cases read

end Options

/-! Documents that are written for options. -/

namespace Options

variable {options : Options} {disk : Disk} {vars : List (String × String)} {path : String}

def outline (options : Options) : List Yaml.Chapter :=
  [⟨"capture".toList,
      [⟨"trigger_node".toList, .number options.capture.trigger.toNat⟩,
        ⟨"start_marker".toList, .text options.capture.marker.toList⟩,
        ⟨"nodes".toList, .numbers (options.capture.motes.map UInt32.toNat)⟩,
        ⟨"header".toList, .text options.capture.header.toList⟩,
        ⟨"row_format".toList, .text options.capture.layout.name.toList⟩,
        ⟨"output".toList, .text options.capture.pattern.toList⟩,
        ⟨"run_id".toList, .text options.capture.runId.toList⟩,
        ⟨"file_id".toList, .text options.capture.fileId.toList⟩,
        ⟨"timeout_ms".toList, .number options.capture.timeoutMs.toNat⟩]⟩,
    ⟨"telemetry".toList,
      [⟨"log_level".toList, .text options.telemetry.logLevel.toList⟩,
        ⟨"report_metrics".toList, .truth options.telemetry.reportsCounters⟩]⟩]

theorem writeField_eq (name : String) (value : List Char) :
    writeField name value = ' ' :: ' ' :: (name.toList ++ ':' :: ' ' :: value) := by
  simp [writeField]

theorem writeText_eq (name text : String) :
    writeText name text = Yaml.Entry.write ⟨name.toList, .text text.toList⟩ := by
  simp [writeText, writeField_eq, Yaml.Entry.write, Yaml.Entry.line, Yaml.Content.write,
    Yaml.Block.Lines.margin]

theorem writeNumber_eq (name : String) (n : Nat) :
    writeNumber name n = Yaml.Entry.write ⟨name.toList, .number n⟩ := by
  simp [writeNumber, writeField_eq, Yaml.Entry.write, Yaml.Entry.line, Yaml.Content.write]

theorem writeBool_eq (name : String) (b : Bool) :
    writeBool name b = Yaml.Entry.write ⟨name.toList, .truth b⟩ := by
  cases b <;>
    simp [writeBool, writeField_eq, Yaml.Entry.write, Yaml.Entry.line, Yaml.Content.write,
      Yaml.Content.truthName]

theorem writeNumbers_eq (name : String) {ns : List Nat} (filled : ns ≠ []) :
    writeNumbers name ns = Yaml.Entry.write ⟨name.toList, .numbers ns⟩ := by
  rw [writeNumbers, if_neg (by simpa using filled)]
  simp only [Yaml.Entry.write, Yaml.Entry.line, Yaml.Content.write, List.append_assoc]
  rfl

theorem write_eq (filled : options.capture.motes ≠ []) :
    options.write = String.ofList (options.outline.flatMap Yaml.Chapter.write) := by
  have some : options.capture.motes.map UInt32.toNat ≠ [] := by simpa using filled
  simp only [write, writeSection, writeText_eq, writeNumber_eq, writeBool_eq, writeNumbers_eq _ some]
  simp [outline, Yaml.Chapter.write]

theorem outline_ne_nil (options : Options) : options.outline ≠ [] :=
  List.cons_ne_nil _ _

def IsName (name : String) : Prop :=
  Yaml.Plain.IsWord name.toList ∧ name.toList.length ≤ 256

instance (name : String) : Decidable (IsName name) :=
  inferInstanceAs (Decidable (_ ∧ _))

theorem fits_entry {name : String} {content : Yaml.Content} (word : IsName name)
    (fits : content.Fits) : Yaml.Entry.Fits ⟨name.toList, content⟩ :=
  ⟨word.1, word.2, fits⟩

theorem fits_chapter {name : String} {entries : List Yaml.Entry} (word : IsName name)
    (filled : entries ≠ []) (fits : ∀ entry ∈ entries, entry.Fits) :
    Yaml.Chapter.Fits ⟨name.toList, entries⟩ :=
  ⟨word.1, word.2, filled, fits⟩

theorem fits_outline (filled : options.capture.motes ≠ []) :
    ∀ chapter ∈ options.outline, chapter.Fits := by
  have motes : (Yaml.Content.numbers (options.capture.motes.map UInt32.toNat)).Fits := by
    refine ⟨by simpa using filled, fun n member => ?_⟩
    obtain ⟨mote, -, rfl⟩ := List.mem_map.mp member
    exact Nat.lt_trans mote.toNat_lt (by decide)
  have trigger : (Yaml.Content.number options.capture.trigger.toNat).Fits :=
    Nat.lt_trans options.capture.trigger.toNat_lt (by decide)
  have timeout : (Yaml.Content.number options.capture.timeoutMs.toNat).Fits :=
    options.capture.timeoutMs.toNat_lt
  simp only [outline, List.forall_mem_cons]
  refine ⟨fits_chapter (by decide +kernel) (List.cons_ne_nil _ _) ?_,
    fits_chapter (by decide +kernel) (List.cons_ne_nil _ _) ?_, by simp⟩
  · simp only [List.forall_mem_cons]
    exact ⟨fits_entry (by decide +kernel) trigger, fits_entry (by decide +kernel) trivial,
      fits_entry (by decide +kernel) motes, fits_entry (by decide +kernel) trivial,
      fits_entry (by decide +kernel) trivial, fits_entry (by decide +kernel) trivial,
      fits_entry (by decide +kernel) trivial, fits_entry (by decide +kernel) trivial,
      fits_entry (by decide +kernel) timeout, by simp⟩
  · simp only [List.forall_mem_cons]
    exact ⟨fits_entry (by decide +kernel) trivial, fits_entry (by decide +kernel) trivial, by simp⟩

theorem isBare_outline (options : Options) : ∀ chapter ∈ options.outline, chapter.IsBare := by
  simp only [outline, List.forall_mem_cons, Yaml.Chapter.IsBare, String.ofList_toList]
  decide +kernel

theorem outlineValue_outline (origin : Origin) (options : Options) :
    Yaml.outlineValue origin options.outline = options.tree origin := by
  have numbers : (options.capture.motes.map UInt32.toNat).map (fun n => .scalar origin (.unsigned n)) =
      options.capture.motes.map fun mote => Value.scalar origin (.unsigned mote.toNat) :=
    List.map_map
  simp only [Yaml.outlineValue, outline, Yaml.Chapter.value, Yaml.Entry.value, Yaml.Content.value,
    ofEntries, setEntry, List.map_cons, List.map_nil, List.foldl_cons, List.foldl_nil,
    String.ofList_toList, numbers, String.reduceLT, String.reduceBEq, reduceIte, Bool.false_eq_true,
    Options.tree, CaptureOptions.tree, TelemetryOptions.tree]

/-- The document says every field. -/
theorem read_write (origin : Origin) (filled : options.capture.motes ≠ []) :
    Yaml.Document.read origin (Text.encode options.write) = .ok (options.tree origin) := by
  rw [write_eq filled, Yaml.Document.read_outline origin options.outline_ne_nil (fits_outline filled)
    options.isBare_outline, outlineValue_outline]

theorem motes_ne_nil_of_check (clean : options.check = []) : options.capture.motes ≠ [] := by
  intro none
  rw [check] at clean
  split at clean
  · next silent =>
    simp [fieldComplaints, complainInside_eq_nil_iff, CaptureOptions.complaints, complain_eq_nil_iff,
      none] at silent
  · next complaints => exact complaints (List.isEmpty_iff.mpr clean)

theorem fileLayers_write (vars : List (String × String)) (filled : options.capture.motes ≠ [])
    (written : disk.file? (.ofString path) = some (Text.encode options.write)) :
    ∃ origin, fileLayers disk vars (some path) = .ok [options.tree origin] := by
  obtain ⟨origin, layer⟩ := exists_fileLayer_of_file? written fun origin => read_write origin filled
  refine ⟨origin, ?_⟩
  rw [fileLayers, if_pos (has_of_file? written), layer]
  rfl

theorem environment_value_of_unset (unset : ∀ entry ∈ vars, Environment.keys? entry.1 = none) :
    Environment.value vars = .map .environment [] := by
  induction vars using List.reverseRecOn with
  | nil => rfl
  | append_singleton vars entry ih =>
      rw [List.forall_mem_append, List.forall_mem_singleton] at unset
      rw [environment_value_append, unset.2, ih unset.1]

/-- The options are loaded from a file that holds the document written for them, if they keep the
rules and no variable is one for options. -/
theorem load_written_options (clean : options.check = [])
    (written : disk.file? (.ofString path) = some (Text.encode options.write))
    (unset : ∀ entry ∈ vars, Environment.keys? entry.1 = none) :
    load disk vars (some path) = .ok options := by
  obtain ⟨origin, decoded⟩ := fileLayers_write vars (motes_ne_nil_of_check clean) written
  rw [load, decoded, environment_value_of_unset unset]
  change ofLayers ([standard.tree .direct, options.tree origin] ++ [.map .environment []]) = _
  have good : ∀ layer ∈ [standard.tree .direct, options.tree origin] ++ [.map .environment []],
      IsLayer layer := by
    simp only [List.forall_mem_append, List.forall_mem_cons]
    exact ⟨⟨isLayer_tree .direct .standard, isLayer_tree origin options, by simp⟩,
      isLayer_empty .environment, by simp⟩
  refine (ofLayers_eq_ok_iff good).mpr ⟨fun field => ?_, clean⟩
  obtain ⟨value, told, single, own⟩ := at?_tree origin options field
  have last : field.last? ([standard.tree .direct, options.tree origin] ++
      [.map .environment []]) = some value := by
    rw [last?_append, ← List.singleton_append, last?_append, told]
    rfl
  rw [(joined?_eq_iff single field _).mpr last]
  exact own

theorem odd_texts_are_loaded_back :
    let capture : CaptureOptions :=
      { CaptureOptions.standard with
        marker := "0x1F", motes := [7, 3, 7], header := "\t\x27a\x27: \"b\" #", runId := "\r\n- no\n",
        fileId := "null", pattern := "&\x7bnode\x7d\x85", timeoutMs := 86400000 }
    let options : Options := ⟨capture, ⟨"Warn", true⟩⟩
    let disk : Disk := ⟨[(["run", "shown.yaml"], .file (Text.encode options.write))], ["run"]⟩
    options.check = [] ∧
      disk.file? (.ofString "shown.yaml") = some (Text.encode options.write) ∧
      load disk [("HOME", "/"), ("SENSELOG", "1")] (some "shown.yaml") = .ok options := by
  intro capture options disk
  have clean : options.check = [] := by decide +kernel
  have written : disk.file? (.ofString "shown.yaml") = some (Text.encode options.write) := rfl
  exact ⟨clean, written, load_written_options clean written (by decide +kernel)⟩

end Options

end MoteCapture

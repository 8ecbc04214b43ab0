import MoteCapture.Options.Load
import MoteCapture.Proofs.Options.Overlay

/-!
Options field by field. A value whose sections are maps says what each field is in one place, and the
options that are read from it depend on these places alone.
-/

namespace MoteCapture

open Value

namespace Options

inductive Field where
  | trigger
  | marker
  | motes
  | header
  | layout
  | pattern
  | runId
  | fileId
  | timeoutMs
  | logLevel
  | reportsCounters
  deriving DecidableEq, Repr

namespace Field

def sectionKey : Field → String
  | .logLevel => "telemetry"
  | .reportsCounters => "telemetry"
  | _ => "capture"

def key : Field → String
  | .trigger => "trigger_node"
  | .marker => "start_marker"
  | .motes => "nodes"
  | .header => "header"
  | .layout => "row_format"
  | .pattern => "output"
  | .runId => "run_id"
  | .fileId => "file_id"
  | .timeoutMs => "timeout_ms"
  | .logLevel => "log_level"
  | .reportsCounters => "report_metrics"

def Content : Field → Type
  | .trigger => MoteId
  | .motes => List MoteId
  | .layout => RowLayout
  | .timeoutMs => UInt64
  | .reportsCounters => Bool
  | _ => String

def content (options : Options) : (field : Field) → field.Content
  | .trigger => options.capture.trigger
  | .marker => options.capture.marker
  | .motes => options.capture.motes
  | .header => options.capture.header
  | .layout => options.capture.layout
  | .pattern => options.capture.pattern
  | .runId => options.capture.runId
  | .fileId => options.capture.fileId
  | .timeoutMs => options.capture.timeoutMs
  | .logLevel => options.telemetry.logLevel
  | .reportsCounters => options.telemetry.reportsCounters

def read : (field : Field) → Value → Except Misfit field.Content
  | .trigger => readWord32
  | .marker => readText
  | .motes => readList readWord32
  | .header => readText
  | .layout => readLayout false
  | .pattern => readText
  | .runId => readText
  | .fileId => readText
  | .timeoutMs => readWord64
  | .logLevel => readText
  | .reportsCounters => readBool

def at? (field : Field) (value : Value) : Option Value :=
  (value.member? field.sectionKey).bind (Value.member? field.key)

end Field

end Options

namespace Value

variable {value high low : Value} {name key : String}

def sectionEntries (name : String) (value : Value) : List (String × Value) :=
  match value.member? name with
  | some (.map _ entries) => entries
  | _ => []

def SectionsAreMaps (value : Value) : Prop :=
  ∀ name ∈ ["capture", "telemetry"], ∀ inner, value.member? name = some inner → inner.IsMap

end Value

namespace Options

variable {value high low : Value} {options : Options} {field : Field}

theorem Field.sectionKey_mem (field : Field) : field.sectionKey ∈ ["capture", "telemetry"] := by
  cases field <;> simp [Field.sectionKey]

theorem Field.at?_eq (field : Field) (value : Value) :
    field.at? value = (value.sectionEntries field.sectionKey).lookup field.key := by
  rw [Field.at?, Value.sectionEntries]
  cases value.member? field.sectionKey with
  | none => rfl
  | some inner => cases inner <;> rfl

theorem overlay?_none (high : Option Value) : overlay? high none = high := by
  cases high <;> rfl

structure IsLayer (value : Value) : Prop where
  keyed : value.Keyed
  isMap : value.IsMap
  sections : value.SectionsAreMaps

theorem keyed_member? {inner : Value} (keyed : value.Keyed) {key : String}
    (found : value.member? key = some inner) : inner.Keyed := by
  cases value with
  | scalar => cases found
  | list => cases found
  | map origin entries => exact (keyed_map_iff.mp keyed).lookup found

theorem IsLayer.keyed_at? {inner : Value} (layer : IsLayer value)
    (told : field.at? value = some inner) : inner.Keyed := by
  obtain ⟨group, found, inside⟩ := Option.bind_eq_some_iff.mp told
  exact keyed_member? (keyed_member? layer.keyed found) inside

theorem at?_overlay (upper : IsLayer high) (lower : IsLayer low) (field : Field) :
    field.at? (overlay high low) = overlay? (field.at? high) (field.at? low) := by
  simp only [Field.at?, member?_overlay upper.keyed upper.isMap lower.isMap]
  cases above : high.member? field.sectionKey with
  | none => rfl
  | some inner =>
      cases below : low.member? field.sectionKey with
      | none => exact (overlay?_none (inner.member? field.key)).symm
      | some other =>
          have innerMap := upper.sections _ field.sectionKey_mem _ above
          have otherMap := lower.sections _ field.sectionKey_mem _ below
          exact member?_overlay (keyed_member? upper.keyed above) innerMap otherMap field.key

theorem IsLayer.overlay (upper : IsLayer high) (lower : IsLayer low) :
    IsLayer (overlay high low) where
  keyed := upper.keyed.overlay lower.keyed
  isMap := isMap_overlay upper.isMap lower.isMap
  sections := by
    intro name member inner found
    rw [member?_overlay upper.keyed upper.isMap lower.isMap] at found
    cases above : high.member? name with
    | none =>
        rw [above] at found
        exact lower.sections name member inner found
    | some value =>
        have valueMap := upper.sections name member value above
        cases below : low.member? name with
        | none =>
            rw [above, below] at found
            cases found
            exact valueMap
        | some old =>
            rw [above, below] at found
            cases found
            exact isMap_overlay valueMap (lower.sections name member old below)

/-! Reading. -/

section Reading

variable {ε α β : Type} {read : Value → Except Misfit α} {standard a : α}
  {entries others : List (String × Value)} {key : String}

theorem bind_eq_ok_iff {first : Except ε α} {next : α → Except ε β} {b : β} :
    (first >>= next) = .ok b ↔ ∃ a, first = .ok a ∧ next a = .ok b := by
  cases first <;> simp [bind, Except.bind]

theorem atKey_eq_ok_iff {outcome : Except Misfit α} : atKey key outcome = .ok a ↔ outcome = .ok a := by
  cases outcome <;> simp [atKey]

/-- What a place says of a field. One that is empty leaves the standard. -/
def Says (read : Value → Except Misfit α) (standard : α) (place : Option Value) (a : α) : Prop :=
  match place with
  | some value => read value = .ok a
  | none => standard = a

theorem field_eq_ok_iff :
    Value.field entries key read standard = .ok a ↔ Says read standard (entries.lookup key) a := by
  rw [Value.field]
  cases entries.lookup key <;> simp [Says, atKey_eq_ok_iff]

theorem field_congr (key : String) (same : entries.lookup key = others.lookup key) :
    Value.field entries key read standard = Value.field others key read standard := by
  rw [Value.field, Value.field, same]

end Reading

section Sections

variable {origin other : Origin} {entries others : List (String × Value)}
  {capture : CaptureOptions} {telemetry : TelemetryOptions}

theorem readCapture_eq_ok_iff : readCapture false (.map origin entries) = .ok capture ↔
    Says readText CaptureOptions.standard.fileId (entries.lookup "file_id") capture.fileId ∧
    Says readText CaptureOptions.standard.header (entries.lookup "header") capture.header ∧
    Says (readList readWord32) CaptureOptions.standard.motes (entries.lookup "nodes") capture.motes ∧
    Says readText CaptureOptions.standard.pattern (entries.lookup "output") capture.pattern ∧
    Says (readLayout false) CaptureOptions.standard.layout (entries.lookup "row_format")
      capture.layout ∧
    Says readText CaptureOptions.standard.runId (entries.lookup "run_id") capture.runId ∧
    Says readText CaptureOptions.standard.marker (entries.lookup "start_marker") capture.marker ∧
    Says readWord64 CaptureOptions.standard.timeoutMs (entries.lookup "timeout_ms")
      capture.timeoutMs ∧
    Says readWord32 CaptureOptions.standard.trigger (entries.lookup "trigger_node")
      capture.trigger := by
  simp only [readCapture, bind_eq_ok_iff, field_eq_ok_iff]
  constructor
  · rintro ⟨_, fileId, _, header, _, motes, _, pattern, _, layout, _, runId, _, marker, _, timeout, _,
      trigger, same⟩
    cases same
    exact ⟨fileId, header, motes, pattern, layout, runId, marker, timeout, trigger⟩
  · rintro ⟨fileId, header, motes, pattern, layout, runId, marker, timeout, trigger⟩
    exact ⟨_, fileId, _, header, _, motes, _, pattern, _, layout, _, runId, _, marker, _, timeout, _,
      trigger, rfl⟩

theorem readTelemetry_eq_ok_iff : readTelemetry false (.map origin entries) = .ok telemetry ↔
    Says readText TelemetryOptions.standard.logLevel (entries.lookup "log_level")
      telemetry.logLevel ∧
    Says readBool TelemetryOptions.standard.reportsCounters (entries.lookup "report_metrics")
      telemetry.reportsCounters := by
  simp only [readTelemetry, bind_eq_ok_iff, field_eq_ok_iff]
  constructor
  · rintro ⟨_, logLevel, _, counters, same⟩
    cases same
    exact ⟨logLevel, counters⟩
  · rintro ⟨logLevel, counters⟩
    exact ⟨_, logLevel, _, counters, rfl⟩

theorem readCapture_congr (same : ∀ field : Field, field.sectionKey = "capture" →
      entries.lookup field.key = others.lookup field.key) :
    readCapture false (.map origin entries) = readCapture false (.map other others) := by
  simp only [readCapture, field_congr "file_id" (same .fileId rfl),
    field_congr "header" (same .header rfl), field_congr "nodes" (same .motes rfl),
    field_congr "output" (same .pattern rfl), field_congr "row_format" (same .layout rfl),
    field_congr "run_id" (same .runId rfl), field_congr "start_marker" (same .marker rfl),
    field_congr "timeout_ms" (same .timeoutMs rfl), field_congr "trigger_node" (same .trigger rfl)]

theorem readTelemetry_congr (same : ∀ field : Field, field.sectionKey = "telemetry" →
      entries.lookup field.key = others.lookup field.key) :
    readTelemetry false (.map origin entries) = readTelemetry false (.map other others) := by
  simp only [readTelemetry, field_congr "log_level" (same .logLevel rfl),
    field_congr "report_metrics" (same .reportsCounters rfl)]

end Sections

/-- A section that is missing is read as one without entries. -/
theorem ofValue_eq (map : value.IsMap) (sections : value.SectionsAreMaps) :
    ofValue false value = do
      let capture ← atKey "capture" (readCapture false (.map .direct (value.sectionEntries "capture")))
      let telemetry ←
        atKey "telemetry" (readTelemetry false (.map .direct (value.sectionEntries "telemetry")))
      return { capture, telemetry } := by
  obtain ⟨origin, entries, rfl⟩ := map
  have capture : Value.field entries "capture" (readCapture false) .standard =
      atKey "capture" (readCapture false
        (.map .direct (sectionEntries "capture" (.map origin entries)))) := by
    rw [Value.field, sectionEntries, member?]
    cases found : entries.lookup "capture" with
    | none => rfl
    | some inner =>
        obtain ⟨_, _, rfl⟩ := sections "capture" (by simp) inner found
        rfl
  have telemetry : Value.field entries "telemetry" (readTelemetry false) .standard =
      atKey "telemetry" (readTelemetry false
        (.map .direct (sectionEntries "telemetry" (.map origin entries)))) := by
    rw [Value.field, sectionEntries, member?]
    cases found : entries.lookup "telemetry" with
    | none => rfl
    | some inner =>
        obtain ⟨_, _, rfl⟩ := sections "telemetry" (by simp) inner found
        rfl
  rw [ofValue, capture, telemetry]

/-- The value is read as the options exactly if every field of them is. -/
theorem ofValue_eq_ok_iff (map : value.IsMap) (sections : value.SectionsAreMaps) :
    ofValue false value = .ok options ↔
      ∀ field : Field, Says field.read (field.content .standard) (field.at? value)
        (field.content options) := by
  simp only [ofValue_eq map sections, bind_eq_ok_iff, atKey_eq_ok_iff, readCapture_eq_ok_iff,
    readTelemetry_eq_ok_iff, Field.at?_eq]
  constructor
  · rintro ⟨capture, ⟨fileId, header, motes, pattern, layout, runId, marker, timeout, trigger⟩,
      telemetry, ⟨logLevel, counters⟩, same⟩ field
    cases same
    cases field <;> assumption
  · intro told
    exact ⟨options.capture, ⟨told .fileId, told .header, told .motes, told .pattern, told .layout,
      told .runId, told .marker, told .timeoutMs, told .trigger⟩, options.telemetry,
      ⟨told .logLevel, told .reportsCounters⟩, rfl⟩

/-- What stands at no field makes no difference. -/
theorem ofValue_congr {other : Value} (map : value.IsMap) (sections : value.SectionsAreMaps)
    (otherMap : other.IsMap) (otherSections : other.SectionsAreMaps)
    (same : ∀ field : Field, field.at? value = field.at? other) :
    ofValue false value = ofValue false other := by
  have lookups (field : Field) :
      (value.sectionEntries field.sectionKey).lookup field.key =
        (other.sectionEntries field.sectionKey).lookup field.key := by
    rw [← Field.at?_eq, ← Field.at?_eq, same]
  have capture : readCapture false (.map .direct (value.sectionEntries "capture")) =
      readCapture false (.map .direct (other.sectionEntries "capture")) :=
    readCapture_congr fun field inside => inside ▸ lookups field
  have telemetry : readTelemetry false (.map .direct (value.sectionEntries "telemetry")) =
      readTelemetry false (.map .direct (other.sectionEntries "telemetry")) :=
    readTelemetry_congr fun field inside => inside ▸ lookups field
  rw [ofValue_eq map sections, ofValue_eq otherMap otherSections, capture, telemetry]

theorem readBelow_number {bound n : Nat} (small : n < bound) (origin : Origin) (wanted : Wanted) :
    readBelow bound wanted (.scalar origin (.unsigned n)) = .ok n := by
  simp [readBelow, small]

theorem readWord32_number (origin : Origin) (n : UInt32) :
    readWord32 (.scalar origin (.unsigned n.toNat)) = .ok n := by
  rw [readWord32, readBelow_number n.toNat_lt]
  simp [Except.map]

theorem readWord64_number (origin : Origin) (n : UInt64) :
    readWord64 (.scalar origin (.unsigned n.toNat)) = .ok n := by
  rw [readWord64, readBelow_number n.toNat_lt]
  simp [Except.map]

theorem readItems_motes (origin : Origin) (index : Nat) (motes : List MoteId) :
    readItems readWord32 index (motes.map fun mote => .scalar origin (.unsigned mote.toNat)) =
      .ok motes := by
  induction motes generalizing index with
  | nil => rfl
  | cons mote rest ih =>
      rw [List.map_cons, readItems, readWord32_number, ih]
      rfl

theorem ofName?_name (layout : RowLayout) : RowLayout.ofName? layout.name = some layout := by
  cases layout <;> rfl

theorem at?_tree (origin : Origin) (options : Options) (field : Field) :
    ∃ value, field.at? (options.tree origin) = some value ∧ ¬ value.IsMap ∧
      field.read value = .ok (field.content options) := by
  have scalar (content : Scalar) : ¬ (Value.scalar origin content).IsMap := by
    rintro ⟨_, _, same⟩
    cases same
  cases field with
  | trigger => exact ⟨_, rfl, scalar _, readWord32_number origin options.capture.trigger⟩
  | motes =>
      refine ⟨_, rfl, ?_, readItems_motes origin 0 options.capture.motes⟩
      rintro ⟨_, _, same⟩
      cases same
  | layout =>
      refine ⟨_, rfl, scalar _, ?_⟩
      change readLayout false (.scalar origin (.text options.capture.layout.name)) = _
      rw [readLayout, ofName?_name]
      rfl
  | timeoutMs => exact ⟨_, rfl, scalar _, readWord64_number origin options.capture.timeoutMs⟩
  | _ => exact ⟨_, rfl, scalar _, rfl⟩

theorem keyed_capture (origin : Origin) (options : CaptureOptions) :
    (options.tree origin).Keyed := by
  refine .map (List.pairwise_map.mp ?_) ?_
  · change List.Pairwise (· < ·) ["file_id", "header", "nodes", "output", "row_format", "run_id",
      "start_marker", "timeout_ms", "trigger_node"]
    decide +kernel
  · simp only [List.forall_mem_cons]
    refine ⟨.scalar _ _, .scalar _ _, .list _ _, .scalar _ _, .scalar _ _, .scalar _ _, .scalar _ _,
      .scalar _ _, .scalar _ _, by simp⟩

theorem keyed_telemetry (origin : Origin) (options : TelemetryOptions) :
    (options.tree origin).Keyed := by
  refine .map (List.pairwise_map.mp ?_) ?_
  · change List.Pairwise (· < ·) ["log_level", "report_metrics"]
    decide +kernel
  · simp only [List.forall_mem_cons]
    exact ⟨.scalar _ _, .scalar _ _, by simp⟩

theorem isLayer_tree (origin : Origin) (options : Options) : IsLayer (options.tree origin) where
  keyed := by
    refine .map (List.pairwise_map.mp ?_) ?_
    · change List.Pairwise (· < ·) ["capture", "telemetry"]
      decide +kernel
    · simp only [List.forall_mem_cons]
      exact ⟨keyed_capture origin options.capture, keyed_telemetry origin options.telemetry, by simp⟩
  isMap := ⟨_, _, rfl⟩
  sections := by
    intro name member inner found
    simp only [List.mem_cons, List.not_mem_nil, or_false] at member
    rcases member with rfl | rfl
    · cases found
      exact ⟨_, _, rfl⟩
    · cases found
      exact ⟨_, _, rfl⟩

end Options

end MoteCapture

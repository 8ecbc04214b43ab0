import MoteCapture.Options.Load
import MoteCapture.Options.Value
import MoteCapture.Proofs.Disk
import MoteCapture.Proofs.Text.Basic

/-!
Maps laid over one another, seen key by key: what the upper one says counts, unless both say a map. For
this every key has to stand once in the upper map. Files and variables are decoded to maps that have their
entries in the ascending order of the keys, all the way down, which keeps them apart.
-/

namespace MoteCapture

namespace Value

variable {origin : Origin} {entries highs lows : List (String × Value)} {key wanted : String}
  {value : Value}

def member? (key : String) : Value → Option Value
  | .map _ entries => entries.lookup key
  | _ => none

def IsMap (value : Value) : Prop :=
  ∃ origin entries, value = .map origin entries

def overlay? : (high low : Option Value) → Option Value
  | some value, some old => some (overlay value old)
  | some value, none => some value
  | none, low => low

theorem lookup_setEntry (key wanted : String) (value : Value) (entries : List (String × Value)) :
    (setEntry key value entries).lookup wanted =
      if wanted = key then some value else entries.lookup wanted := by
  induction entries with
  | nil => simp [setEntry, lookup_cons_ite]
  | cons entry rest ih =>
      rw [setEntry]
      split
      · simp [lookup_cons_ite]
      · split
        · next same =>
          have hit : key = entry.1 := beq_iff_eq.mp same
          by_cases found : wanted = key
          · simp [lookup_cons_ite, found]
          · have passed : wanted ≠ entry.1 := hit ▸ found
            simp [lookup_cons_ite, found, passed]
        · next different =>
          have passed : key ≠ entry.1 := by simpa using different
          by_cases found : wanted = key
          · subst found
            simp [lookup_cons_ite, ih, passed]
          · simp [lookup_cons_ite, ih, found]

theorem lookup_eq_none_of_not_mem (absent : wanted ∉ entries.map Prod.fst) :
    entries.lookup wanted = none := by
  induction entries with
  | nil => rfl
  | cons entry rest ih =>
      rw [List.map_cons, List.mem_cons, not_or] at absent
      simp [lookup_cons_ite, absent.1, ih absent.2]

theorem lookup_entriesOver (apart : (highs.map Prod.fst).Nodup) (lows : List (String × Value))
    (wanted : String) :
    (entriesOver highs lows).lookup wanted = overlay? (highs.lookup wanted) (lows.lookup wanted) := by
  induction highs generalizing lows with
  | nil => simp [entriesOver, overlay?]
  | cons entry rest ih =>
      obtain ⟨key, value⟩ := entry
      rw [List.map_cons, List.nodup_cons] at apart
      obtain ⟨absent, later⟩ := apart
      rw [entriesOver, ih later, lookup_setEntry, lookup_cons_ite]
      by_cases same : wanted = key
      · subst same
        rw [lookup_eq_none_of_not_mem absent]
        cases found : lows.lookup wanted <;> simp [overlay?]
      · simp [same]

theorem isMap_overlay {high low : Value} (upper : high.IsMap) (lower : low.IsMap) :
    (overlay high low).IsMap := by
  obtain ⟨origin, highs, rfl⟩ := upper
  obtain ⟨other, lows, rfl⟩ := lower
  rw [overlay]
  exact ⟨_, _, rfl⟩

-- Only a map over a map is more than the upper value.
theorem overlay_eq {high low : Value} (other : ¬ (high.IsMap ∧ low.IsMap)) :
    overlay high low = high := by
  rw [overlay.eq_2]
  intro origin highs origin' lows upper lower
  exact other ⟨⟨origin, highs, upper⟩, origin', lows, lower⟩

def Ascending (entries : List (String × Value)) : Prop :=
  entries.Pairwise fun earlier later => earlier.1 < later.1

inductive Keyed : Value → Prop where
  | scalar (origin : Origin) (content : Scalar) : Keyed (.scalar origin content)
  | list (origin : Origin) (items : List Value) : Keyed (.list origin items)
  | map {origin : Origin} {entries : List (String × Value)} (ascending : Ascending entries)
      (inner : ∀ entry ∈ entries, Keyed entry.2) : Keyed (.map origin entries)

theorem Ascending.nodup (ascending : Ascending entries) : (entries.map Prod.fst).Nodup := by
  rw [List.nodup_iff_pairwise_ne, List.pairwise_map]
  exact ascending.imp fun before => Std.ne_of_lt before

theorem mem_setEntry {entry : String × Value} (member : entry ∈ setEntry key value entries) :
    entry = (key, value) ∨ entry ∈ entries := by
  induction entries with
  | nil => simpa [setEntry] using member
  | cons first rest ih =>
      rw [setEntry] at member
      split at member
      · simpa using member
      · split at member
        · rcases List.mem_cons.mp member with new | old
          · exact .inl new
          · exact .inr (List.mem_cons_of_mem first old)
        · rcases List.mem_cons.mp member with same | later
          · exact .inr (same ▸ List.mem_cons_self)
          · rcases ih later with new | old
            · exact .inl new
            · exact .inr (List.mem_cons_of_mem first old)

theorem ascending_setEntry (ascending : Ascending entries) :
    Ascending (setEntry key value entries) := by
  induction entries with
  | nil => simp [setEntry, Ascending]
  | cons first rest ih =>
      obtain ⟨head, tail⟩ := List.pairwise_cons.mp ascending
      rw [setEntry]
      split
      · next before =>
        refine List.pairwise_cons.mpr ⟨fun entry member => ?_, ascending⟩
        rcases List.mem_cons.mp member with rfl | later
        · exact before
        · exact Std.lt_trans before (head entry later)
      · next notBefore =>
        split
        · next same =>
          have hit : key = first.1 := beq_iff_eq.mp same
          exact List.pairwise_cons.mpr ⟨fun entry member => hit ▸ head entry member, tail⟩
        · next different =>
          have passed : first.1 ≠ key := fun same => different (beq_iff_eq.mpr same.symm)
          have behind : first.1 < key := Std.lt_of_le_of_ne (Std.not_lt.mp notBefore) passed
          refine List.pairwise_cons.mpr ⟨fun entry member => ?_, ih tail⟩
          rcases mem_setEntry member with rfl | old
          · exact behind
          · exact head entry old

def KeyedEntries (entries : List (String × Value)) : Prop :=
  Ascending entries ∧ ∀ entry ∈ entries, entry.2.Keyed

theorem KeyedEntries.setEntry (keyed : KeyedEntries entries) (own : value.Keyed) :
    KeyedEntries (setEntry key value entries) := by
  refine ⟨ascending_setEntry keyed.1, fun entry member => ?_⟩
  rcases mem_setEntry member with rfl | old
  · exact own
  · exact keyed.2 entry old

theorem keyed_ofEntries (inner : ∀ entry ∈ entries, entry.2.Keyed) :
    (ofEntries origin entries).Keyed := by
  have folded : ∀ sorted, KeyedEntries sorted → KeyedEntries
      (entries.foldl (fun sorted entry => Value.setEntry entry.1 entry.2 sorted) sorted) := by
    induction entries with
    | nil => exact fun sorted keyed => keyed
    | cons entry rest ih =>
        intro sorted keyed
        refine ih (fun other member => inner other (List.mem_cons_of_mem _ member)) _ ?_
        exact keyed.setEntry (inner entry List.mem_cons_self)
  obtain ⟨ascending, keyed⟩ := folded [] ⟨List.Pairwise.nil, by simp⟩
  exact .map ascending keyed

theorem keyed_nest (keys : List String) (own : value.Keyed) : (nest origin keys value).Keyed := by
  induction keys with
  | nil => exact own
  | cons key rest ih =>
      refine .map (List.pairwise_singleton _ _) fun entry member => ?_
      rw [List.mem_singleton] at member
      subst member
      exact ih

theorem KeyedEntries.lookup (keyed : KeyedEntries entries)
    (found : entries.lookup key = some value) : value.Keyed := by
  obtain ⟨before, behind, rfl, -⟩ := List.lookup_eq_some_iff.mp found
  exact keyed.2 (key, value) (by simp)

theorem keyed_map_iff : (map origin entries).Keyed ↔ KeyedEntries entries := by
  constructor
  · rintro ⟨⟩
    exact ⟨‹_›, ‹_›⟩
  · rintro ⟨ascending, inner⟩
    exact .map ascending inner

theorem relocateEntries_eq (origin : Origin) (entries : List (String × Value)) :
    relocateEntries origin entries =
      entries.map fun entry => (entry.1, entry.2.relocate origin) := by
  induction entries with
  | nil => rfl
  | cons entry rest ih => simp [relocateEntries, ih]

theorem Keyed.relocate (keyed : value.Keyed) (origin : Origin) : (value.relocate origin).Keyed := by
  induction keyed with
  | scalar => exact .scalar _ _
  | list => exact .list _ _
  | map ascending _ ih =>
      rw [Value.relocate, relocateEntries_eq]
      refine .map (List.pairwise_map.mpr ascending) fun entry member => ?_
      obtain ⟨old, inside, rfl⟩ := List.mem_map.mp member
      exact ih old inside

theorem KeyedEntries.entriesOver (lower : KeyedEntries lows)
    (own : ∀ entry ∈ highs, entry.2.Keyed)
    (laid : ∀ entry ∈ highs, ∀ {low : Value}, low.Keyed → (overlay entry.2 low).Keyed) :
    KeyedEntries (entriesOver highs lows) := by
  induction highs generalizing lows with
  | nil => simpa [Value.entriesOver] using lower
  | cons entry rest ih =>
      rw [Value.entriesOver]
      refine ih ?_ (fun other member => own other (List.mem_cons_of_mem _ member))
        (fun other member => laid other (List.mem_cons_of_mem _ member))
      apply lower.setEntry
      split
      · next old found => exact laid entry List.mem_cons_self (lower.lookup found)
      · exact own entry List.mem_cons_self

theorem Keyed.overlay {high low : Value} (upper : high.Keyed) (lower : low.Keyed) :
    (overlay high low).Keyed := by
  induction upper generalizing low with
  | scalar => simpa [Value.overlay] using Keyed.scalar _ _
  | list => simpa [Value.overlay] using Keyed.list _ _
  | map ascending inner ih =>
      cases lower with
      | scalar => simpa [Value.overlay] using Keyed.map ascending inner
      | list => simpa [Value.overlay] using Keyed.map ascending inner
      | map below own =>
          rw [Value.overlay, keyed_map_iff]
          exact KeyedEntries.entriesOver ⟨below, own⟩ inner ih

theorem member?_overlay {high low : Value} (keyed : high.Keyed) (upper : high.IsMap)
    (lower : low.IsMap) (key : String) :
    (Value.overlay high low).member? key = overlay? (high.member? key) (low.member? key) := by
  obtain ⟨origin, highs, rfl⟩ := upper
  obtain ⟨other, lows, rfl⟩ := lower
  rw [Value.overlay]
  exact lookup_entriesOver (keyed_map_iff.mp keyed).1.nodup lows key

end Value

open Value

namespace Yaml.Document.Builder

variable {α β : Type}

/-- Whatever the action gives, if it gives anything, is good. -/
def Gives (action : Builder α) (good : α → Prop) : Prop :=
  ∀ left a rest, action.run left = .ok (a, rest) → good a

variable {action : Builder α} {good : α → Prop} {better : β → Prop}

theorem gives_pure {a : α} (own : good a) : Gives (pure a) good := by
  intro left b rest run
  cases run
  exact own

theorem gives_throw (fault : Fault) : Gives (throw fault : Builder α) good := by
  intro left a rest run
  cases run

theorem Gives.bind {next : α → Builder β} (first : Gives action good)
    (later : ∀ a, good a → Gives (next a) better) : Gives (action >>= next) better := by
  intro left b rest run
  rw [StateT.run_bind] at run
  cases outcome : action.run left with
  | error fault =>
      rw [outcome] at run
      cases run
  | ok result =>
      rw [outcome] at run
      exact later result.1 (first left result.1 result.2 outcome) result.2 b rest run

theorem Gives.map {f : α → β} (first : Gives action good) (later : ∀ a, good a → better (f a)) :
    Gives (f <$> action) better := by
  rw [map_eq_pure_bind]
  exact first.bind fun a own => gives_pure (later a own)

theorem gives_mapM {f : α → Builder β} {items : List α}
    (each : ∀ item ∈ items, Gives (f item) better) :
    Gives (items.mapM f) fun results => ∀ result ∈ results, better result := by
  induction items with
  | nil => exact gives_pure (by simp)
  | cons item rest ih =>
      rw [List.mapM_cons]
      refine (each item List.mem_cons_self).bind fun first own => ?_
      refine (ih fun other member => each other (List.mem_cons_of_mem _ member)).bind ?_
      exact fun others all => gives_pure (List.forall_mem_cons.mpr ⟨own, all⟩)

theorem gives_any (action : Builder α) : Gives action fun _ => True := fun _ _ _ _ => trivial

theorem keyed_unwrap (origin : Origin) {entries : List (String × Value ⊕ Nat)}
    (inner : ∀ entry, .inl entry ∈ entries → entry.2.Keyed) : (unwrap origin entries).Keyed := by
  have values : ∀ entry ∈ entries.filterMap Sum.getLeft?, entry.2.Keyed := by
    intro entry member
    obtain ⟨sum, inside, found⟩ := List.mem_filterMap.mp member
    rw [Sum.getLeft?_eq_some_iff] at found
    subst found
    exact inner entry inside
  have wrapped : ∀ value, (entries.filterMap Sum.getLeft?).reverse.lookup wrappedKey = some value →
      value.Keyed := by
    intro value found
    obtain ⟨before, behind, split, -⟩ := List.lookup_eq_some_iff.mp found
    refine values (wrappedKey, value) ?_
    rw [← List.mem_reverse, split]
    simp
  rw [unwrap]
  split
  · exact keyed_ofEntries values
  · next found _ => exact wrapped _ found
  · next found _ => exact (wrapped _ found).relocate _

theorem gives_value (origin : Origin) (anchored : List (Nat × Node)) (depth : Nat) (node : Node) :
    Gives (value origin anchored depth node) Keyed := by
  induction depth using Nat.strongRecOn generalizing node with
  | ind depth ih =>
    rw [value]
    refine (gives_any _).bind fun target _ => ?_
    have nested {content : Builder Value} (own : Gives content Keyed) :
        Gives (do return nest origin (tagKeys target.properties) (← content)) Keyed :=
      own.bind fun value keyed => gives_pure (keyed_nest _ keyed)
    dsimp only
    split
    · exact nested ((gives_any _).map fun content _ => .scalar origin content)
    · exact nested ((gives_any _).map fun items _ => .list origin items)
    · next entries depth =>
      have each : ∀ entry ∈ entries, Gives
          (do
            let key ← key anchored entry.1
            if key == placeKey then return .inr (← place anchored entry.2)
            else return .inl (key, ← value origin anchored depth entry.2))
          fun found : String × Value ⊕ Nat => ∀ entry, found = .inl entry → entry.2.Keyed := by
        intro entry _
        refine (gives_any _).bind fun key _ => ?_
        split
        · exact (gives_any _).bind fun place _ => gives_pure (by simp)
        · exact (ih depth (by omega) entry.2).bind fun value keyed => gives_pure (by simp [keyed])
      exact nested ((gives_mapM each).map fun found all =>
        keyed_unwrap origin fun entry member => all _ member entry rfl)
    · exact nested (gives_throw _)

theorem gives_root (origin : Origin) (anchored : List (Nat × Node)) (node : Node) :
    Gives (root origin anchored node) fun value => value.Keyed ∧ value.IsMap := by
  rw [root.eq_def]
  split
  · next entries =>
    have each : ∀ entry ∈ entries, Gives
        (do return (← key anchored entry.1, ← value origin anchored (greatestDepth - 1) entry.2))
        fun found : String × Value => found.2.Keyed := by
      intro entry _
      refine (gives_any _).bind fun key _ => ?_
      exact (gives_value origin anchored _ entry.2).bind fun value keyed => gives_pure keyed
    exact (gives_mapM each).bind fun found all =>
      gives_pure ⟨keyed_ofEntries all, _, _, rfl⟩
  · split
    · exact gives_pure ⟨.map .nil (by simp), _, _, rfl⟩
    · exact gives_throw _
  · exact gives_throw _

end Yaml.Document.Builder

theorem keyed_read {origin : Origin} {bytes : Text.Bytes} {value : Value}
    (read : Yaml.Document.read origin bytes = .ok value) : value.Keyed ∧ value.IsMap := by
  rw [Yaml.Document.read] at read
  split at read
  · next text _ =>
    rw [Yaml.Document.readText] at read
    simp only [bind, Except.bind] at read
    split at read
    · cases read
    · next tokens _ =>
      split at read
      · cases read
      · next root _ =>
        split at read
        · cases read
        · next result run =>
          cases read
          exact Yaml.Document.Builder.gives_root origin _ _ _ _ _ run
  · cases read

namespace Environment

/-- Both readers that build values from others, with so much fuel. -/
theorem keyed_readers (fuel : Nat) :
    (∀ text value rest, readValue? fuel text = some (value, rest) → value.Keyed) ∧
    ∀ text entries rest, readFields? fuel text = some (entries, rest) →
      ∀ entry ∈ entries, entry.2.Keyed := by
  induction fuel with
  | zero =>
      constructor
      · intro text value rest read
        cases read
      · intro text entries rest read
        cases read
  | succ fuel ih =>
      constructor
      · intro text value rest read
        rw [readValue?] at read
        split at read <;>
          obtain ⟨pair, found, same⟩ := Option.bind_eq_some_iff.mp read <;>
          obtain ⟨parts, inner, rfl⟩ := Option.map_eq_some_iff.mp found <;> cases same
        · exact .list _ _
        · exact keyed_ofEntries (ih.2 _ _ _ inner)
        · exact .scalar _ _
      · intro text entries rest read
        unfold readFields? at read
        split at read
        · cases read
        · cases read
          simp
        · next same _ =>
          cases same
          obtain ⟨key, _, read⟩ := Option.bind_eq_some_iff.mp read
          obtain ⟨value, valueRead, read⟩ := Option.bind_eq_some_iff.mp read
          have own := ih.1 _ _ _ valueRead
          dsimp only at read
          split at read
          · obtain ⟨others, inner, same⟩ := Option.map_eq_some_iff.mp read
            cases same
            exact List.forall_mem_cons.mpr ⟨own, ih.2 _ _ _ inner⟩
          · cases read
            simp [own]
          · cases read

theorem keyed_readText (text : String) : (readText text).Keyed := by
  rw [readText]
  split
  · next value found => exact (keyed_readers _).1 _ _ _ found
  · exact .scalar _ _

theorem isMap_nest {keys : List String} (filled : keys ≠ []) (value : Value) :
    (nest .environment keys value).IsMap := by
  obtain ⟨key, rest, rfl⟩ := List.exists_cons_of_ne_nil filled
  exact ⟨_, _, rfl⟩

theorem keys?_ne_nil {name : String} {keys : List String} (found : keys? name = some keys) :
    keys ≠ [] := by
  rw [keys?] at found
  split at found
  · cases found
  · dsimp only at found
    split at found
    · cases found
    · cases found
      simp [Text.splitAll_eq_splitOn]

theorem keyed_value (vars : List (String × String)) : (value vars).Keyed ∧ (value vars).IsMap := by
  have blank : (Value.map .environment []).Keyed ∧ (Value.map .environment []).IsMap :=
    ⟨.map .nil (by simp), _, _, rfl⟩
  refine List.foldlRecOn (motive := fun low : Value => low.Keyed ∧ low.IsMap) vars _ blank
    fun low lower entry _ => ?_
  split
  · next keys found =>
    have named := isMap_nest (keys?_ne_nil found) (readText entry.2)
    exact ⟨(keyed_nest keys (keyed_readText entry.2)).overlay lower.1, isMap_overlay named lower.2⟩
  · exact lower

end Environment

end MoteCapture

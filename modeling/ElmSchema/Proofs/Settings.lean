import ElmSchema.Proofs.Text.Loose
import ElmSchema.Settings
import Mathlib.Data.List.Nodup
import Mathlib.Data.List.Perm.Basic

/-!
# Settings as a function of their entries

Settings are read entry by entry. Entries under different keys change different parts of the
settings, so those of an object can be made all at once, by an update that asks for the value under
each of five keys. The settings that an object stands for are therefore determined by what it has
under these keys, whatever the order of its entries and whatever else it has. The exceptions are
the reserved keys, each of which changes the outcome by its mere presence.

The summary of settings is an object that stands for settings with the same summary.
-/

namespace ElmSchema

namespace Json

/-- No two entries have the same key. -/
def DistinctKeys (entries : List (LooseText × Json)) : Prop :=
  (entries.map Prod.fst).Nodup

instance (entries : List (LooseText × Json)) : Decidable (DistinctKeys entries) :=
  inferInstanceAs (Decidable (entries.map Prod.fst).Nodup)

theorem lookup_eq_some_iff_mem
    {entries : List (LooseText × Json)} (h : DistinctKeys entries) {key : LooseText} {v : Json} :
  entries.lookup key = some v ↔ (key, v) ∈ entries
  := by
  constructor
  · intro hlookup
    obtain ⟨before, after, rfl, -⟩ := List.lookup_eq_some_iff.mp hlookup
    simp
  · intro hmem
    obtain ⟨before, after, rfl⟩ := List.append_of_mem hmem
    apply List.lookup_eq_some_iff.mpr
    use before, after, rfl
    intro entry hentry
    rw [DistinctKeys, List.map_append, List.nodup_append] at h
    have hne := h.2.2 entry.1 (List.mem_map_of_mem hentry) key (by simp)
    simpa using hne.symm

theorem entryAt?_cons
    (key : String) (key' : LooseText) (v : Json) (entries : List (LooseText × Json)) :
  entryAt? key ((key', v) :: entries)
    = if LooseText.ofString key = key' then some v else entryAt? key entries
  := by
  by_cases h : LooseText.ofString key = key'
  · simp [entryAt?, h]
  · simp [entryAt?, h, List.lookup_cons, beq_eq_false_iff_ne.mpr h]

/-- The order of entries does not matter for what is under a key. -/
theorem lookup_eq_of_perm
    {entries entries' : List (LooseText × Json)} (h : DistinctKeys entries)
    (hperm : entries.Perm entries') (key : LooseText) :
  entries.lookup key = entries'.lookup key
  := by
  have h' : DistinctKeys entries' := (hperm.map Prod.fst).nodup_iff.mp h
  apply Option.ext
  intro v
  rw [lookup_eq_some_iff_mem h, lookup_eq_some_iff_mem h', hperm.mem_iff]

end Json

open Json

namespace Settings

/-- The keys that settings are read from. -/
def keys : List String :=
  ["with_utils", "with_inputs", "schema_extensions", "output_extension", "output"]

/-- The keys that are neither settings nor passed over. -/
def reservedKeys : List String :=
  ["to_dict", "__class__", "__weakref__", "__dict__"]

/-- No entry has a reserved key. -/
def Unreserved (entries : List (LooseText × Json)) : Prop :=
  ∀ entry ∈ entries, entry.1 ∉ reservedKeys.map LooseText.ofString

instance (entries : List (LooseText × Json)) : Decidable (Unreserved entries) :=
  inferInstanceAs (Decidable (∀ entry ∈ entries, entry.1 ∉ reservedKeys.map LooseText.ofString))

/-- The output setting that a value stands for. -/
def outputOf : Json → OutputSetting
  | .object entries => policyOf entries
  | v => .other v

/-- Settings with new values, and with new extensions if there are any. -/
def withValues (s : Settings) (value? : String → Option Json) (extensions : Option Json) :
    Settings :=
  { s with
    withUtils := (value? "with_utils").getD s.withUtils
    withInputs := (value? "with_inputs").getD s.withInputs
    schemaExtensions := extensions.or s.schemaExtensions
    outputExtension := (value? "output_extension").getD s.outputExtension
    output := ((value? "output").map outputOf).or s.output }

/-- Settings in which the values under the five keys take the place of those before. -/
def update (s : Settings) (value? : String → Option Json) : Except SettingsError Settings :=
  match value? "schema_extensions" with
  | none => .ok (s.withValues value? none)
  | some v => (extensionsOf v).map fun extensions => s.withValues value? (some extensions)

/-! ### Updates -/

section

variable {s s' : Settings} {value? other? : String → Option Json}

/-- An update asks for the five keys only. -/
theorem update_congr (h : ∀ key ∈ keys, value? key = other? key) :
  s.update value? = s.update other?
  := by
  simp only [keys, List.forall_mem_cons] at h
  simp only [update, withValues, h]

theorem update_of_forall_none (h : ∀ key ∈ keys, value? key = none) :
  s.update value? = .ok s
  := by
  simp only [keys, List.forall_mem_cons] at h
  simp only [update, withValues, h]
  rfl

theorem update_of_eq_none (h : value? "schema_extensions" = none) :
  s.update value? = .ok (s.withValues value? none)
  := by
  rw [update, h]

theorem update_of_eq_some {v : Json} (h : value? "schema_extensions" = some v) :
  s.update value? = (extensionsOf v).map fun extensions => s.withValues value? (some extensions)
  := by
  rw [update, h]

theorem exists_withValues_of_update (h : s.update value? = .ok s') :
  ∃ extensions, s' = s.withValues value? extensions
  := by
  cases hvalue : value? "schema_extensions" with
  | none =>
      rw [update_of_eq_none hvalue] at h
      use none, (Except.ok.inj h).symm
  | some v =>
      rw [update_of_eq_some hvalue] at h
      cases hv : extensionsOf v with
      | error e => simp [hv, Except.map] at h
      | ok extensions =>
          rw [hv] at h
          use some extensions, (Except.ok.inj h).symm

theorem isSome_output_withValues (hs : s.output.isSome) (extensions : Option Json) :
  (s.withValues value? extensions).output.isSome
  := by
  simp [withValues, hs]

/-- The second of two values is the only one there, or not there. -/
theorem getD_getD_of_disjoint {α : Type} {x y : Option α} (h : x = none ∨ y = none) (a : α) :
  y.getD (x.getD a) = (x.or y).getD a
  := by
  rcases h with rfl | rfl
  · rfl
  · cases x <;> rfl

theorem or_or_of_disjoint {α : Type} {x y : Option α} (h : x = none ∨ y = none) (z : Option α) :
  y.or (x.or z) = (x.or y).or z
  := by
  rcases h with rfl | rfl
  · rfl
  · cases x <;> rfl

theorem withValues_withValues
    (h : ∀ key, value? key = none ∨ other? key = none) {extensions extensions' : Option Json}
    (hextensions : extensions = none ∨ extensions' = none) :
  (s.withValues value? extensions).withValues other? extensions'
    = s.withValues (fun key => (value? key).or (other? key)) (extensions.or extensions')
  := by
  have houtput : (value? "output").map outputOf = none ∨ (other? "output").map outputOf = none := by
    simpa using h "output"
  simp only [withValues, getD_getD_of_disjoint (h _), or_or_of_disjoint houtput,
    or_or_of_disjoint hextensions, Option.map_or]

/-- Updates at different keys can be made at once. -/
theorem update_update (h : ∀ key, value? key = none ∨ other? key = none) :
  (s.update value? >>= fun s => s.update other?)
    = s.update fun key => (value? key).or (other? key)
  := by
  cases hvalue : value? "schema_extensions" with
  | none =>
      rw [update_of_eq_none hvalue]
      cases hother : other? "schema_extensions" with
      | none =>
          rw [update_of_eq_none (by rw [hvalue, hother]; rfl), ← Option.or_none (o := none),
            ← withValues_withValues h (.inl rfl)]
          exact update_of_eq_none hother
      | some v =>
          rw [update_of_eq_some (by rw [hvalue, hother]; rfl)]
          apply (update_of_eq_some hother).trans
          simp only [withValues_withValues h (.inl rfl), Option.none_or]
  | some v =>
      have hother : other? "schema_extensions" = none := by
        simpa [hvalue] using h "schema_extensions"
      rw [update_of_eq_some hvalue, update_of_eq_some (by rw [hvalue]; rfl)]
      cases extensionsOf v with
      | error e => rfl
      | ok extensions =>
          apply (update_of_eq_none hother).trans
          rw [withValues_withValues h (.inr rfl), Option.or_none]
          rfl

end

/-! ### Entries -/

theorem setOutput_of_isSome {s : Settings} (hs : s.output.isSome) (v : Json) :
  s.setOutput v = { s with output := some (outputOf v) }
  := by
  obtain ⟨output, houtput⟩ := Option.isSome_iff_exists.mp hs
  cases v <;> simp [setOutput, outputOf, houtput]

/-- Setting the value of one of the five keys is an update. -/
theorem set_eq_update
    {s : Settings} (hs : s.output.isSome) {key : String} (hkey : key ∈ keys) (v : Json) :
  s.set key v = s.update fun k => if k = key then some v else none
  := by
  simp only [keys, List.mem_cons, List.not_mem_nil, or_false] at hkey
  rcases hkey with rfl | rfl | rfl | rfl | rfl
  · simp [set, update, withValues]
  · simp [set, update, withValues]
  · rw [set, update_of_eq_some rfl]
    cases extensionsOf v with
    | error e => rfl
    | ok extensions => rfl
  · simp [set, update, withValues]
  · simp [set, update, withValues, setOutput_of_isSome hs]

theorem setLoose_ofString (s : Settings) (key : String) (v : Json) :
  s.setLoose (LooseText.ofString key) v = s.set key v
  := by
  rw [setLoose, LooseText.toString?_ofString]

/-- An entry under an unknown key is passed over. -/
theorem setLoose_of_not_mem
    {key : LooseText} (hkeys : key ∉ keys.map LooseText.ofString)
    (hreserved : key ∉ reservedKeys.map LooseText.ofString) (s : Settings) (v : Json) :
  s.setLoose key v = .ok s
  := by
  cases hstring : key.toString? with
  | none => rw [setLoose, hstring]
  | some k =>
      obtain rfl := LooseText.toString?_eq_some_iff.mp hstring
      simp only [keys, reservedKeys, List.map_cons, List.map_nil, List.mem_cons,
        LooseText.ofString_inj, not_or] at hkeys hreserved
      rw [setLoose_ofString, set]
      all_goals tauto

/-- An entry under a key that is not reserved is an update. -/
theorem setLoose_eq_update
    {s : Settings} (hs : s.output.isSome) {key : LooseText} (v : Json)
    (hkey : key ∉ reservedKeys.map LooseText.ofString) :
  s.setLoose key v = s.update fun k => entryAt? k [(key, v)]
  := by
  by_cases hkeys : key ∈ keys.map LooseText.ofString
  · obtain ⟨k, hk, rfl⟩ := List.mem_map.mp hkeys
    simp only [entryAt?_cons, LooseText.ofString_inj]
    rw [setLoose_ofString]
    exact set_eq_update hs hk v
  · rw [setLoose_of_not_mem hkeys hkey, update_of_forall_none]
    intro k hk
    rw [entryAt?_cons, if_neg]
    · rfl
    · rintro rfl
      apply hkeys (List.mem_map_of_mem hk)

/-- Entries under different keys, none of them reserved, are made at once. -/
theorem setAll_eq_update
    {s : Settings} (hs : s.output.isSome) {entries : List (LooseText × Json)}
    (hdistinct : DistinctKeys entries) (hunreserved : Unreserved entries) :
  s.setAll entries = s.update fun key => entryAt? key entries
  := by
  induction entries generalizing s with
  | nil => exact (update_of_forall_none fun _ _ => rfl).symm
  | cons entry rest ih =>
      obtain ⟨key, v⟩ := entry
      obtain ⟨hkey, hrest⟩ := List.nodup_cons.mp hdistinct
      obtain ⟨hkey', hrest'⟩ := List.forall_mem_cons.mp hunreserved
      -- What is under the first key is not among the other entries.
      have hdisjoint : ∀ k, entryAt? k [(key, v)] = none ∨ entryAt? k rest = none := by
        intro k
        by_cases hk : LooseText.ofString k = key
        · right
          rw [entryAt?, List.lookup_eq_none_iff]
          intro entry hentry
          rw [hk, bne_iff_ne]
          rintro rfl
          exact hkey (List.mem_map.mpr ⟨entry, hentry, rfl⟩)
        · left
          rw [entryAt?_cons, if_neg hk]
          rfl
      have hor : (fun k => entryAt? k ((key, v) :: rest))
          = fun k => (entryAt? k [(key, v)]).or (entryAt? k rest) := by
        funext k
        rw [entryAt?_cons, entryAt?_cons]
        split <;> rfl
      rw [setAll, setLoose_eq_update hs v hkey', hor, ← update_update hdisjoint]
      cases hupdate : s.update fun k => entryAt? k [(key, v)] with
      | error e => rfl
      | ok s' =>
          obtain ⟨extensions, rfl⟩ := exists_withValues_of_update hupdate
          exact ih (isSome_output_withValues hs extensions) hrest hrest'

/-- Settings are determined by what is under the five keys. -/
theorem ofJson_eq_update
    {entries : List (LooseText × Json)} (hdistinct : DistinctKeys entries)
    (hunreserved : Unreserved entries) :
  ofJson (.object entries) = update {} fun key => entryAt? key entries
  := setAll_eq_update rfl hdistinct hunreserved

/-! ### Unknown keys -/

theorem setAll_append (s : Settings) (before after : List (LooseText × Json)) :
  s.setAll (before ++ after) = s.setAll before >>= fun s => s.setAll after
  := by
  induction before generalizing s with
  | nil => rfl
  | cons entry rest ih =>
      obtain ⟨key, v⟩ := entry
      rw [List.cons_append, setAll, setAll]
      cases s.setLoose key v with
      | error e => rfl
      | ok s' => exact ih s'

/-- An entry under an unknown key can be left out wherever it stands. -/
theorem setAll_unknown
    {key : LooseText} (hkeys : key ∉ keys.map LooseText.ofString)
    (hreserved : key ∉ reservedKeys.map LooseText.ofString) (s : Settings) (v : Json)
    (before after : List (LooseText × Json)) :
  s.setAll (before ++ (key, v) :: after) = s.setAll (before ++ after)
  := by
  rw [setAll_append, setAll_append]
  cases s.setAll before with
  | error e => rfl
  | ok s' =>
      show s'.setAll ((key, v) :: after) = s'.setAll after
      rw [setAll, setLoose_of_not_mem hkeys hreserved]
      rfl

/-! ### Reserved keys -/

/-- An entry under a reserved key changes the outcome, whatever its value is. -/
theorem ofJson_reserved_ne {key : String} (hkey : key ∈ reservedKeys) (v : Json) :
  ofJson (.object [(key, v)]) ≠ ofJson (.object [])
  := by
  have hread : ofJson (.object [(LooseText.ofString key, v)])
      = set {} key v >>= fun s => .ok s := by
    rw [← setLoose_ofString]
    rfl
  rw [hread]
  simp only [reservedKeys, List.mem_cons, List.not_mem_nil, or_false] at hkey
  rcases hkey with rfl | rfl | rfl | rfl
  · intro h
    cases congrArg obstacle (Except.ok.inj h)
  · intro h
    cases h
  · intro h
    cases h
  · cases v with
    | object entries =>
        intro h
        have houtput := congrArg output (Except.ok.inj h)
        cases hentry : entryAt? "output" entries with
        | none => simp [ofStored, hentry] at houtput
        | some v => simp [ofStored, hentry] at houtput
    | _ =>
        intro h
        cases h

/-! ### Summaries -/

/-- The value that the settings of a value are summed up in. -/
def normalForm (v : Json) : Except SettingsError Json := do
  (← ofJson v).summary

theorem exists_of_bind_eq_ok
    {ε α β : Type} {x : Except ε α} {f : α → Except ε β} {b : β} (h : x >>= f = .ok b) :
  ∃ a, x = .ok a ∧ f a = .ok b
  := by
  cases x with
  | error e => cases h
  | ok a => exact ⟨a, rfl, h⟩

theorem exists_of_summary_eq_ok {s : Settings} {v : Json} (h : s.summary = .ok v) :
  ∃ items validate atomic, v = .object [
      ("with_utils", s.withUtils),
      ("with_inputs", s.withInputs),
      ("schema_extensions", .array items),
      ("output_extension", s.outputExtension),
      ("output", .object [("validate_before_write", validate), ("atomic_write", atomic)])]
  := by
  rw [summary] at h
  cases hobstacle : s.obstacle with
  | some w =>
      rw [hobstacle] at h
      cases h
  | none =>
      rw [hobstacle] at h
      obtain ⟨extensions, -, h⟩ := exists_of_bind_eq_ok h
      obtain ⟨items, -, h⟩ := exists_of_bind_eq_ok h
      obtain ⟨⟨validate, atomic⟩, -, h⟩ := exists_of_bind_eq_ok h
      use items, validate, atomic
      exact (Except.ok.inj h).symm

/-- A summary sums itself up. -/
theorem normalForm_of_summary {s : Settings} {v : Json} (h : s.summary = .ok v) :
  normalForm v = .ok v
  := by
  obtain ⟨items, validate, atomic, rfl⟩ := exists_of_summary_eq_ok h
  rfl

/-- Settings are a function of what is under five keys, as long as no key is reserved: neither the
order of the entries nor entries under other keys matter. An entry under an unknown key never does.
An entry under a reserved key does by itself, whatever it holds. Whenever the settings of a value
have a summary, the summary is the summary of the settings that it stands for. -/
theorem settings_determined_by_entries
    {entries entries' : List (LooseText × Json)} (hdistinct : DistinctKeys entries)
    (hdistinct' : DistinctKeys entries') :
  (Unreserved entries → Unreserved entries' →
    (∀ key ∈ keys, entryAt? key entries = entryAt? key entries') →
    ofJson (.object entries) = ofJson (.object entries')) ∧
  (Unreserved entries → entries.Perm entries' →
    ofJson (.object entries) = ofJson (.object entries')) ∧
  (∀ (before after : List (LooseText × Json)) (key : LooseText) (v : Json),
    key ∉ keys.map LooseText.ofString → key ∉ reservedKeys.map LooseText.ofString →
    ofJson (.object (before ++ (key, v) :: after)) = ofJson (.object (before ++ after))) ∧
  (∀ key ∈ reservedKeys, ∀ v : Json, ofJson (.object [(key, v)]) ≠ ofJson (.object [])) ∧
  ∀ d v : Json, normalForm d = .ok v → normalForm v = .ok v
  := by
  have hdetermined (hunreserved : Unreserved entries) (hunreserved' : Unreserved entries')
      (h : ∀ key ∈ keys, entryAt? key entries = entryAt? key entries') :
      ofJson (.object entries) = ofJson (.object entries') := by
    rw [ofJson_eq_update hdistinct hunreserved, ofJson_eq_update hdistinct' hunreserved']
    apply update_congr h
  refine ⟨hdetermined, ?_, ?_, ?_, ?_⟩
  · intro hunreserved hperm
    apply hdetermined hunreserved
    · intro entry hentry
      apply hunreserved entry (hperm.mem_iff.mpr hentry)
    · intro key _
      apply lookup_eq_of_perm hdistinct hperm
  · intro before after key v hkeys hreserved
    exact setAll_unknown hkeys hreserved {} v before after
  · intro key hkey v
    apply ofJson_reserved_ne hkey
  · intro d v h
    obtain ⟨s, -, hs⟩ := exists_of_bind_eq_ok h
    apply normalForm_of_summary hs

/-- Entries with a value of a wrong kind, a single extension and an unknown key. -/
def looseEntries : List (LooseText × Json) :=
  [("schema_extensions", .string ".graphqls"), ("language", .null), ("with_utils", .string "no"),
    ("output", .object [("atomic_write", .array [])])]

/-- The same entries in another order and without the unknown key. -/
def tidyEntries : List (LooseText × Json) :=
  [("with_utils", .string "no"), ("output", .object [("atomic_write", .array [])]),
    ("schema_extensions", .string ".graphqls")]

/-- The entries stand for the same settings, and their summary has all five keys. -/
theorem settings_determined_by_entries_loose :
  (DistinctKeys looseEntries ∧ DistinctKeys tidyEntries ∧ Unreserved looseEntries ∧
      Unreserved tidyEntries ∧ ∀ key ∈ keys, entryAt? key looseEntries = entryAt? key tidyEntries) ∧
    ofJson (.object looseEntries) = ofJson (.object tidyEntries) ∧
    ∃ v, normalForm (.object looseEntries) = .ok v ∧ normalForm v = .ok v ∧
      v = .object [
        ("with_utils", .string "no"),
        ("with_inputs", .bool false),
        ("schema_extensions", .array [.string ".graphqls"]),
        ("output_extension", .string ".elm"),
        ("output", .object [("validate_before_write", .bool true), ("atomic_write", .array [])])]
  := by
  have hkeys : ∀ key ∈ keys, entryAt? key looseEntries = entryAt? key tidyEntries := by
    simp only [keys, List.forall_mem_cons]
    exact ⟨rfl, rfl, rfl, rfl, rfl, by simp⟩
  have hdistinct : DistinctKeys looseEntries := by decide
  have hdistinct' : DistinctKeys tidyEntries := by decide
  have hunreserved : Unreserved looseEntries := by decide
  have hunreserved' : Unreserved tidyEntries := by decide
  obtain ⟨hdetermined, -, -, -, hsummary⟩ := settings_determined_by_entries hdistinct hdistinct'
  use ⟨hdistinct, hdistinct', hunreserved, hunreserved', hkeys⟩
  constructor
  · exact hdetermined hunreserved hunreserved' hkeys
  · have hnormal : normalForm (.object looseEntries) = .ok _ := rfl
    exact ⟨_, hnormal, hsummary _ _ hnormal, rfl⟩

/-- Entries under other keys than the five are not always without effect: one under `__class__` is
refused. -/
theorem class_entry_not_passed_over :
  ¬∀ (entries : List (LooseText × Json)) (key : String) (v : Json), key ∉ keys →
    DistinctKeys ((LooseText.ofString key, v) :: entries) →
    ofJson (.object ((LooseText.ofString key, v) :: entries)) = ofJson (.object entries)
  := by
  intro h
  cases h [("with_utils", .bool true)] "__class__" (.string "Settings") (by decide) (by decide)

end Settings

end ElmSchema

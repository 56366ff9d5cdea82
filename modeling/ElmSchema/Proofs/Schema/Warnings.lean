import ElmSchema.Schema.Extraction
import Mathlib.Data.List.Nodup

/-!
# Warnings for enums

An enum gives no warning exactly if it has values and no two of them have the same
constructor. All that is reported for an enum is a warning.
-/

namespace ElmSchema

namespace EnumDef

/-- No value collides, with an earlier one or with the constructors seen before, exactly if
the constructors are distinct and none of them has been seen. -/
theorem collisionsFrom_eq_nil_iff (enum : String) :
  ∀ (seen : List (String × String)) (values : List String),
    collisionsFrom enum seen values = [] ↔
      (values.map Name.pascal).Nodup ∧ ∀ v ∈ values, seen.lookup (Name.pascal v) = none
  | seen, [] => by simp [collisionsFrom]
  | seen, value :: rest => by
      simp only [collisionsFrom]
      cases hseen : seen.lookup (Name.pascal value) with
      | some first => simp only [List.forall_mem_cons, hseen, reduceCtorEq, false_and, and_false]
      | none =>
          simp only [collisionsFrom_eq_nil_iff enum _ rest, List.map_cons, List.nodup_cons,
            List.mem_map, List.forall_mem_cons, hseen, true_and, List.lookup_cons]
          constructor
          · rintro ⟨hnodup, hrest⟩
            refine ⟨⟨?_, hnodup⟩, ?_⟩
            · rintro ⟨v, hv, heq⟩
              simpa [heq] using hrest v hv
            · intro v hv
              have := hrest v hv
              split at this
              · simp at this
              · apply this
          · rintro ⟨⟨hfresh, hnodup⟩, hrest⟩
            use hnodup
            intro v hv
            split
            · rename_i heq
              apply absurd _ hfresh
              use v, hv, eq_of_beq heq
            · apply hrest v hv

/-- An enum gives no warning exactly if it has values with distinct constructors. -/
theorem warnings_eq_nil_iff (e : EnumDef) :
  e.warnings = [] ↔ e.values ≠ [] ∧ (e.values.map Name.pascal).Nodup
  := by
  rw [warnings]
  split
  · rename_i hempty
    simp [List.isEmpty_iff.mp hempty]
  · rename_i hempty
    simp [collisionsFrom_eq_nil_iff, List.isEmpty_iff] at hempty ⊢
    simp [hempty]

/-- Each collision is reported as a warning. -/
theorem level_of_mem_collisionsFrom {enum : String} :
  ∀ {seen : List (String × String)} {values : List String} {event : Event},
    event ∈ collisionsFrom enum seen values → event.level = .warning
  | _, [], _, h => by simp [collisionsFrom] at h
  | seen, value :: rest, event, h => by
      simp only [collisionsFrom] at h
      split at h
      · rcases List.mem_cons.mp h with rfl | h
        · rfl
        · apply level_of_mem_collisionsFrom h
      · apply level_of_mem_collisionsFrom h

/-- All that is reported for an enum is a warning. -/
theorem level_of_mem_warnings {e : EnumDef} {event : Event} (h : event ∈ e.warnings) :
  event.level = .warning
  := by
  rw [warnings] at h
  split at h
  · obtain rfl := List.mem_singleton.mp h
    rfl
  · apply level_of_mem_collisionsFrom h

end EnumDef

end ElmSchema

import ElmSchema.Text.Utf8
import Mathlib.Data.List.Count

/-!
# Loose texts of strings

The strings are the loose texts without halves: the loose text of a string determines the string,
and a loose text is that of a string just if no half stands in it. These are also the loose texts
that can be written as bytes.
-/

namespace ElmSchema

namespace LooseText

/-! ### Strings -/

theorem mapM_char?_eq_some_iff :
  ∀ {t : LooseText} {cs : List Char},
    t.mapM LooseChar.char? = some cs ↔ t = cs.map LooseChar.char
  | [], cs => by cases cs <;> simp
  | .half _ :: t, cs => by cases cs <;> simp [LooseChar.char?]
  | .char c :: t, cs => by
      simp only [List.mapM_cons, LooseChar.char?, Option.pure_def, Option.bind_eq_bind,
        Option.bind_some, Option.bind_eq_some_iff, mapM_char?_eq_some_iff]
      cases cs with
      | nil => simp
      | cons c' cs => grind

/-- The string of a loose text is the one whose loose text it is. -/
theorem toString?_eq_some_iff {t : LooseText} {s : String} :
  t.toString? = some s ↔ t = ofString s
  := by
  rw [toString?, Option.map_eq_some_iff]
  constructor
  · rintro ⟨cs, hcs, rfl⟩
    rw [ofString, String.toList_ofList, mapM_char?_eq_some_iff.mp hcs]
  · intro h
    exact ⟨s.toList, mapM_char?_eq_some_iff.mpr h, String.ofList_toList⟩

theorem toString?_ofString (s : String) :
  (ofString s).toString? = some s
  := toString?_eq_some_iff.mpr rfl

@[simp]
theorem ofString_inj {s t : String} :
  ofString s = ofString t ↔ s = t
  := by
  rw [← toString?_eq_some_iff, toString?_ofString, Option.some.injEq]

theorem ofString_append (s t : String) :
  ofString (s ++ t) = ofString s ++ ofString t
  := by
  simp [ofString]

/-! ### Halves -/

theorem isHalf_of_mem_ofString {s : String} {x : LooseChar} (h : x ∈ ofString s) :
  x.isHalf = false
  := by
  obtain ⟨c, -, rfl⟩ := List.mem_map.mp h
  rfl

theorem hasHalf_ofString (s : String) :
  (ofString s).hasHalf = false
  := by
  simp only [hasHalf, List.any_eq_false, Bool.not_eq_true]
  intro x hx
  apply isHalf_of_mem_ofString hx

/-- A text without halves is shown as it is. -/
theorem ofString_shown {t : LooseText} (h : t.hasHalf = false) :
  ofString t.shown = t
  := by
  induction t with
  | nil => rfl
  | cons x rest ih =>
      cases x with
      | half index => simp [hasHalf, LooseChar.isHalf] at h
      | char c =>
          have hrest : hasHalf rest = false := by simpa [hasHalf, LooseChar.isHalf] using h
          simpa [ofString, shown, LooseChar.shown] using ih hrest

theorem toString?_eq_none_iff {t : LooseText} :
  t.toString? = none ↔ t.hasHalf
  := by
  cases hhalf : t.hasHalf with
  | true =>
      cases hstring : t.toString? with
      | none => simp
      | some s =>
          rw [toString?_eq_some_iff.mp hstring, hasHalf_ofString] at hhalf
          simp at hhalf
  | false =>
      rw [← ofString_shown hhalf, toString?_ofString]
      simp

theorem count_ofString (s : String) (c : Char) :
  (ofString s).count (.char c) = s.toList.count c
  := List.count_map_of_injective _ _ (fun _ _ => LooseChar.char.inj) c

/-! ### Bytes -/

theorem byteSize_append (s t : LooseText) :
  byteSize (s ++ t) = byteSize s + byteSize t
  := by
  induction s with
  | nil => simp [byteSize]
  | cons x rest ih => rw [List.cons_append, byteSize, byteSize, ih, Nat.add_assoc]

end LooseText

namespace Text.Utf8

theorem encode?_ofString (s : String) :
  encode? (LooseText.ofString s) = some (encode s)
  := by
  rw [encode?, LooseText.toString?_ofString]
  rfl

/-- The texts with halves are those that cannot be written as bytes. -/
theorem encode?_eq_none_iff {t : LooseText} :
  encode? t = none ↔ t.hasHalf
  := by
  rw [encode?, Option.map_eq_none_iff, LooseText.toString?_eq_none_iff]

end Text.Utf8

end ElmSchema

import ElmSchema.Proofs.Name.Boundaries

/-!
# The alphabet of spellings

A word of a text holds ASCII letters and digits only. The spellings of a name are made of
the words of the name by changing the case of letters, so they hold ASCII letters and digits
only as well.
-/

namespace ElmSchema.Name

/-! ### Changing the case of a letter -/

/-- The upper case of a letter or digit is a letter or digit. -/
theorem isAlphanum_toUpper {c : Char} (h : c.isAlphanum) :
  c.toUpper.isAlphanum
  := by
  cases hc : c.isLower with
  | true => simp [Char.isAlphanum, Char.isAlpha, hc]
  | false => rw [Char.toUpper_eq_of_not_isLower (by simp [hc]), h]

/-- The lower case of a letter or digit is a letter or digit. -/
theorem isAlphanum_toLower {c : Char} (h : c.isAlphanum) :
  c.toLower.isAlphanum
  := by
  cases hc : c.isUpper with
  | true => simp [Char.isAlphanum, Char.isAlpha, hc]
  | false => rw [Char.toLower_eq_of_not_isUpper (by simp [hc]), h]

/-! ### Words -/

/-- The words of a text hold letters and digits only. -/
theorem isAlphanum_of_mem_words {cs w : List Char} {x : Char} (hw : w ∈ words cs) (hx : x ∈ w) :
  x.isAlphanum
  := by
  have hmem : x ∈ (words cs).flatten := List.mem_flatten_of_mem hw hx
  rw [(splits_words cs).flatten_eq] at hmem
  apply List.of_mem_filter hmem

/-! ### Spellings -/

/-- A word of letters and digits in lower case holds letters and digits. -/
theorem isAlphanum_of_mem_lowercase
    {w : List Char} (hw : ∀ x ∈ w, x.isAlphanum) {x : Char} (hx : x ∈ lowercase w) :
  x.isAlphanum
  := by
  obtain ⟨y, hy, rfl⟩ := List.mem_map.mp hx
  apply isAlphanum_toLower (hw y hy)

/-- A capitalized word of letters and digits holds letters and digits. -/
theorem isAlphanum_of_mem_capitalize :
  ∀ {w : List Char}, (∀ x ∈ w, x.isAlphanum) → ∀ {x : Char}, x ∈ capitalize w → x.isAlphanum
  | [], _, _, hx => by simp [capitalize] at hx
  | c :: rest, hw, x, hx => by
      rcases List.mem_cons.mp hx with rfl | hx
      · apply isAlphanum_toUpper (hw c List.mem_cons_self)
      · apply isAlphanum_of_mem_lowercase (fun y hy => hw y (List.mem_cons_of_mem c hy)) hx

/-- Words of letters and digits, capitalized and joined, hold letters and digits. -/
theorem isAlphanum_of_mem_joinPascal
    {ws : List (List Char)} (hws : ∀ w ∈ ws, ∀ x ∈ w, x.isAlphanum) {x : Char}
    (hx : x ∈ joinPascal ws) :
  x.isAlphanum
  := by
  obtain ⟨w, hw, hx⟩ := List.mem_flatMap.mp hx
  apply isAlphanum_of_mem_capitalize (hws w hw) hx

/-- The pascal-case spelling of a name holds letters and digits only. -/
theorem isAlphanum_of_mem_pascal {name : String} {x : Char} (hx : x ∈ (pascal name).toList) :
  x.isAlphanum
  := by
  rw [pascal, String.toList_ofList] at hx
  apply isAlphanum_of_mem_joinPascal (fun _ hw _ hx => isAlphanum_of_mem_words hw hx) hx

/-- The camel-case spelling of a name holds letters and digits only. -/
theorem isAlphanum_of_mem_camel {name : String} {x : Char} (hx : x ∈ (camel name).toList) :
  x.isAlphanum
  := by
  rw [camel, String.toList_ofList] at hx
  cases hws : words name.toList with
  | nil => simp [hws, joinCamel] at hx
  | cons w ws =>
      have hall : ∀ v ∈ w :: ws, ∀ x ∈ v, x.isAlphanum := by
        intro v hv x hx
        rw [← hws] at hv
        apply isAlphanum_of_mem_words hv hx
      rw [hws, joinCamel] at hx
      rcases List.mem_append.mp hx with hx | hx
      · apply isAlphanum_of_mem_lowercase (hall w List.mem_cons_self) hx
      · apply isAlphanum_of_mem_joinPascal (fun v hv => hall v (List.mem_cons_of_mem w hv)) hx

end ElmSchema.Name

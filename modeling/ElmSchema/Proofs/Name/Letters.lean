import ElmSchema.Name.Case

/-!
# Letters and digits

The ASCII letters and digits are known by their codes. Capitals, lower-case letters and digits
have codes in three ranges that do not meet, so a letter or digit is of one of the three kinds and
of no other.
-/

namespace ElmSchema.Name

/-! ### Codes -/

theorem isUpper_iff {c : Char} :
  c.isUpper ↔ 65 ≤ c.toNat ∧ c.toNat ≤ 90
  := by
  apply decide_eq_true_iff.trans
  exact and_congr UInt32.le_iff_toNat_le UInt32.le_iff_toNat_le

theorem isLower_iff {c : Char} :
  c.isLower ↔ 97 ≤ c.toNat ∧ c.toNat ≤ 122
  := by
  apply Bool.and_eq_true_iff.trans
  rw [decide_eq_true_iff, decide_eq_true_iff]
  exact and_congr UInt32.le_iff_toNat_le UInt32.le_iff_toNat_le

theorem isDigit_iff {c : Char} :
  c.isDigit ↔ 48 ≤ c.toNat ∧ c.toNat ≤ 57
  := Char.isDigit_iff_toNat

/-! ### Kinds -/

theorem isAlphanum_iff {c : Char} :
  c.isAlphanum ↔ (c.isUpper ∨ c.isLower) ∨ c.isDigit
  := Bool.or_eq_true_iff.trans (or_congr_left Bool.or_eq_true_iff)

theorem isAlphanum_of_isUpper {c : Char} (h : c.isUpper) :
  c.isAlphanum
  := isAlphanum_iff.mpr (.inl (.inl h))

theorem isAlphanum_of_isLower {c : Char} (h : c.isLower) :
  c.isAlphanum
  := isAlphanum_iff.mpr (.inl (.inr h))

theorem isAlphanum_of_isDigit {c : Char} (h : c.isDigit) :
  c.isAlphanum
  := isAlphanum_iff.mpr (.inr h)

/-- A letter or digit is a capital, a lower-case letter or a digit, and only one of them. -/
theorem isAlphanum_cases {c : Char} (h : c.isAlphanum) :
  (c.isUpper = true ∧ c.isLower = false ∧ c.isDigit = false) ∨
    (c.isUpper = false ∧ c.isLower = true ∧ c.isDigit = false) ∨
    (c.isUpper = false ∧ c.isLower = false ∧ c.isDigit = true)
  := by
  simp only [isAlphanum_iff, ← Bool.not_eq_true, isUpper_iff, isLower_iff, isDigit_iff] at h ⊢
  omega

theorem not_of_isUpper {c : Char} (h : c.isUpper) :
  c.isLower = false ∧ c.isDigit = false
  := by
  rcases isAlphanum_cases (isAlphanum_of_isUpper h) with hc | hc | hc
  · exact hc.2
  · simp [h] at hc
  · simp [h] at hc

theorem not_of_isLower {c : Char} (h : c.isLower) :
  c.isUpper = false ∧ c.isDigit = false
  := by
  rcases isAlphanum_cases (isAlphanum_of_isLower h) with hc | hc | hc
  · simp [h] at hc
  · exact ⟨hc.1, hc.2.2⟩
  · simp [h] at hc

theorem not_of_isDigit {c : Char} (h : c.isDigit) :
  c.isUpper = false ∧ c.isLower = false
  := by
  rcases isAlphanum_cases (isAlphanum_of_isDigit h) with hc | hc | hc
  · simp [h] at hc
  · simp [h] at hc
  · exact ⟨hc.1, hc.2.1⟩

/-- A character that is no letter or digit is none of the three. -/
theorem not_isAlphanum_iff {c : Char} :
  c.isAlphanum = false ↔ c.isUpper = false ∧ c.isLower = false ∧ c.isDigit = false
  := by
  simp only [← Bool.not_eq_true, isAlphanum_iff, not_or, and_assoc]

end ElmSchema.Name

import ElmSchema.Proofs.Schema.Analysis
import ElmSchema.Proofs.Schema.Warnings
import Mathlib.Data.Finset.Card

/-!
# Collisions of constructors

An enum is warned about once for each value whose constructor an earlier value has, in the order
of the values. The warning names the first of all values with that constructor, also when there
are several, so a value that collides is never named first. All values but the first of each
constructor give a warning, and there are as many as that.

While the values are checked, the constructors seen so far are kept, each with the first value
that has it. This is what `Remembers` says, and what each step preserves.
-/

namespace ElmSchema

open Document (Definition)

namespace EnumDef

/-! ### Positions -/

/-- Whether the value at a position has the constructor of an earlier value. -/
def isRepeated (values : List String) (j : Nat) : Bool :=
  (List.range j).any fun i => (values[i]?.map Name.pascal) == (values[j]?.map Name.pascal)

/-- The positions of the values that have the constructor of an earlier value, in increasing
order. -/
def repeatedPositions (e : EnumDef) : List Nat :=
  (List.range e.values.length).filter (isRepeated e.values)

/-- An event tells of the value at a position, and of the first of all values with the same
constructor. -/
def Reports (e : EnumDef) (event : Event) (j : Nat) : Prop :=
  ∃ i first second, i < j ∧ e.values[i]? = some first ∧ e.values[j]? = some second ∧
    Name.pascal first = Name.pascal second ∧
    (∀ k < i, ∀ v, e.values[k]? = some v → Name.pascal v ≠ Name.pascal second) ∧
    event = .collision e.name first second (Name.pascal second)

theorem isRepeated_append_cons (done : List String) (v : String) (rest : List String) :
  isRepeated (done ++ v :: rest) done.length
    = (done.find? fun u => Name.pascal u == Name.pascal v).isSome
  := by
  rw [Bool.eq_iff_iff, isRepeated, List.any_eq_true, List.find?_isSome]
  constructor
  · rintro ⟨i, hi, heq⟩
    have hi : i < done.length := List.mem_range.mp hi
    use done[i], List.getElem_mem hi
    simpa [List.getElem?_append_left hi, List.getElem?_eq_getElem hi] using heq
  · rintro ⟨u, hu, heq⟩
    obtain ⟨i, hi, rfl⟩ := List.mem_iff_getElem.mp hu
    use i, List.mem_range.mpr hi
    simpa [List.getElem?_append_left hi, List.getElem?_eq_getElem hi] using heq

/-- The first value of a constructor is found at the earliest position with that constructor. -/
theorem exists_position_of_find?
    {done : List String} {c first : String}
    (h : (done.find? fun u => Name.pascal u == c) = some first) :
  ∃ i, i < done.length ∧ done[i]? = some first ∧ Name.pascal first = c ∧
    ∀ k < i, ∀ v, done[k]? = some v → Name.pascal v ≠ c
  := by
  obtain ⟨hfirst, i, hi, rfl, hearlier⟩ := List.find?_eq_some_iff_getElem.mp h
  use i, hi, List.getElem?_eq_getElem hi, by simpa using hfirst
  intro k hk v hv
  obtain ⟨hk', rfl⟩ := List.getElem?_eq_some_iff.mp hv
  simpa using hearlier k hk

/-! ### What has been seen -/

/-- The constructors of the values so far are kept, each with the first value that has it. -/
def Remembers (seen : List (String × String)) (done : List String) : Prop :=
  ∀ c, seen.lookup c = done.find? fun u => Name.pascal u == c

theorem remembers_nil :
  Remembers [] []
  := by
  intro c
  rfl

/-- A value whose constructor has been seen changes nothing. -/
theorem Remembers.concat_of_some
    {seen : List (String × String)} {done : List String} {v first : String}
    (h : Remembers seen done) (hseen : seen.lookup (Name.pascal v) = some first) :
  Remembers seen (done ++ [v])
  := by
  intro c
  rw [List.find?_append, ← h c]
  by_cases hc : Name.pascal v = c
  · rw [← hc, hseen]
    rfl
  · simp [hc]

/-- A value whose constructor is new is kept with it. -/
theorem Remembers.concat_of_none
    {seen : List (String × String)} {done : List String} {v : String} (h : Remembers seen done)
    (hseen : seen.lookup (Name.pascal v) = none) :
  Remembers ((Name.pascal v, v) :: seen) (done ++ [v])
  := by
  intro c
  rw [List.find?_append, ← h c, List.lookup_cons]
  by_cases hc : Name.pascal v = c
  · simp [← hc, hseen]
  · have hc' : (c == Name.pascal v) = false := by simpa using Ne.symm hc
    simp [hc, hc']

/-! ### Warnings -/

/-- From any point of the check on, there is a warning for each later position that repeats a
constructor. -/
theorem reports_collisionsFrom {name : String} :
  ∀ {seen : List (String × String)} {done rest : List String}, Remembers seen done →
    List.Forall₂ (Reports ⟨name, done ++ rest⟩) (collisionsFrom name seen rest)
      ((List.range' done.length rest.length).filter (isRepeated (done ++ rest)))
  | seen, done, [], h => List.Forall₂.nil
  | seen, done, v :: rest, h => by
      have hrest : done ++ v :: rest = done ++ [v] ++ rest := by simp
      have hlength : done.length + 1 = (done ++ [v]).length := by simp
      have hrepeated := isRepeated_append_cons done v rest
      rw [← h] at hrepeated
      simp only [collisionsFrom, List.length_cons, List.range'_succ]
      cases hseen : seen.lookup (Name.pascal v) with
      | some first =>
          rw [List.filter_cons_of_pos (by rw [hrepeated, hseen]; rfl)]
          constructor
          · obtain ⟨i, hi, hfirst, hname, hearlier⟩ :=
              exists_position_of_find? ((h _).symm.trans hseen)
            use i, first, v, hi
            refine ⟨by rwa [List.getElem?_append_left hi], by simp, hname, ?_, rfl⟩
            intro k hk u hu
            rw [List.getElem?_append_left (hk.trans hi)] at hu
            apply hearlier k hk u hu
          · rw [hrest, hlength]
            apply reports_collisionsFrom (h.concat_of_some hseen)
      | none =>
          rw [List.filter_cons_of_neg (by rw [hrepeated, hseen]; simp), hrest, hlength]
          apply reports_collisionsFrom (h.concat_of_none hseen)

/-- Each value gives a warning or a new constructor. -/
theorem length_collisionsFrom (name : String) :
  ∀ (seen : List (String × String)) (done rest : List String), Remembers seen done →
    (collisionsFrom name seen rest).length + ((done ++ rest).map Name.pascal).toFinset.card
      = rest.length + (done.map Name.pascal).toFinset.card
  | seen, done, [], h => by simp [collisionsFrom]
  | seen, done, v :: rest, h => by
      have hrest : done ++ v :: rest = done ++ [v] ++ rest := by simp
      have hdone : ((done ++ [v]).map Name.pascal).toFinset
          = insert (Name.pascal v) (done.map Name.pascal).toFinset := by
        simp
      have hmem : Name.pascal v ∈ (done.map Name.pascal).toFinset ↔
          (seen.lookup (Name.pascal v)).isSome := by
        rw [h, List.find?_isSome]
        simp
      simp only [collisionsFrom, hrest]
      cases hseen : seen.lookup (Name.pascal v) with
      | some first =>
          have ih := length_collisionsFrom name seen _ rest (h.concat_of_some hseen)
          rw [hdone, Finset.insert_eq_of_mem (hmem.mpr (by simp [hseen]))] at ih
          simp only [List.length_cons]
          omega
      | none =>
          have ih := length_collisionsFrom name _ _ rest (h.concat_of_none hseen)
          rw [hdone, Finset.card_insert_of_notMem (by simp [hmem, hseen])] at ih
          simp only [List.length_cons]
          omega

/-- An enum with values is warned about at each position that repeats a constructor. -/
theorem reports_warnings {e : EnumDef} (hvalues : e.values ≠ []) :
  List.Forall₂ e.Reports e.warnings e.repeatedPositions
  := by
  rw [warnings, if_neg (by simpa using hvalues), repeatedPositions, List.range_eq_range']
  apply reports_collisionsFrom remembers_nil

theorem length_warnings {e : EnumDef} (hvalues : e.values ≠ []) :
  e.warnings.length + (e.values.map Name.pascal).toFinset.card = e.values.length
  := by
  rw [warnings, if_neg (by simpa using hvalues)]
  apply length_collisionsFrom e.name [] [] e.values remembers_nil

/-! ### Documents -/

/-- An enum is declared by a definition with its name and with its values among the members. -/
def DeclaredBy (e : EnumDef) (d : Definition) : Prop :=
  ∃ members, d = .enum e.name members ∧ members.filterMap valueOf? = e.values

end EnumDef

/-- Each enum definition of a document declares an enum, in the order of the document. -/
theorem declaredBy_enums (doc : Document) :
  List.Forall₂ EnumDef.DeclaredBy (Document.enums doc) (doc.filter (·.kind = .enum))
  := by
  rw [Document.enums]
  induction doc with
  | nil => apply List.Forall₂.nil
  | cons d doc ih =>
      cases d with
      | enum name members =>
          apply List.Forall₂.cons _ ih
          use members
      | object name fields => apply ih
      | input name fields => apply ih
      | unsupported fields => apply ih

/-- The warnings among the events of an analysis are those of the enums. -/
theorem filter_warning_analyze (moduleName : String) (doc : Document) :
  (Document.analyze moduleName doc).1.filter (·.level = .warning)
    = (Document.enums doc).flatMap EnumDef.warnings
  := by
  have hwarnings : (Document.enumWarnings doc).filter (·.level = .warning)
      = Document.enumWarnings doc := by
    rw [List.filter_eq_self]
    intro event hevent
    obtain ⟨e, -, hevent⟩ := List.mem_flatMap.mp hevent
    simpa using EnumDef.level_of_mem_warnings hevent
  rw [Document.analyze]
  cases Document.schema doc with
  | error e =>
      rw [List.filter_cons_of_neg (by simp [Event.level]), hwarnings]
      rfl
  | ok s =>
      simp only [List.filter_append]
      rw [List.filter_cons_of_neg (by simp [Event.level]), hwarnings]
      split <;> simp [Event.level, Document.enumWarnings]

/-- The warnings for collisions are exact. An enum with values gives one for each position that
repeats a constructor, in the order of the positions, which names the first value with that
constructor and the value at the position; so there are as many as there are values beyond the
distinct constructors, and none if the constructors are distinct. The warnings of a document are
those of its enums one after the other, and each enum definition gives its enum, with or without
a warning. -/
theorem collision_warnings_exact (doc : Document) (moduleName : String) :
  (∀ e : EnumDef, e.values ≠ [] →
      List.Forall₂ e.Reports e.warnings e.repeatedPositions ∧
      e.warnings.length = e.values.length - (e.values.map Name.pascal).toFinset.card ∧
      (e.warnings = [] ↔ (e.values.map Name.pascal).Nodup)) ∧
    (Document.analyze moduleName doc).1.filter (·.level = .warning)
      = (Document.enums doc).flatMap EnumDef.warnings ∧
    List.Forall₂ EnumDef.DeclaredBy (Document.enums doc) (doc.filter (·.kind = .enum)) ∧
    ∀ s, (Document.analyze moduleName doc).2 = .ok s → s.enums = Document.enums doc
  := by
  refine ⟨?_, filter_warning_analyze moduleName doc, declaredBy_enums doc, ?_⟩
  · intro e hvalues
    have hlength := EnumDef.length_warnings hvalues
    refine ⟨EnumDef.reports_warnings hvalues, by omega, ?_⟩
    rw [EnumDef.warnings_eq_nil_iff]
    exact and_iff_right hvalues
  · intro s hs
    rw [Document.analyze] at hs
    cases hschema : Document.schema doc with
    | error e => simp [hschema] at hs
    | ok s' =>
        obtain rfl : s' = s := by simpa [hschema] using hs
        exact (schema_eq_ok_iff.mp hschema).1.symm

/-- An enum with three values of one constructor and two of another one. -/
def paletteEnum : EnumDef :=
  ⟨"Color", ["RED", "green", "red", "Red", "GREEN"]⟩

/-- The third value of a constructor is reported with the first one, not with the second. -/
theorem collision_warnings_exact_palette :
  paletteEnum.values ≠ [] ∧ paletteEnum.repeatedPositions = [2, 3, 4] ∧
    List.Forall₂ paletteEnum.Reports
      [.collision "Color" "RED" "red" "Red", .collision "Color" "RED" "Red" "Red",
        .collision "Color" "green" "GREEN" "Green"] [2, 3, 4] ∧
    paletteEnum.warnings.length = 3
  := by
  have hvalues : paletteEnum.values ≠ [] := by decide
  have hpositions : paletteEnum.repeatedPositions = [2, 3, 4] := by decide
  have hdistinct : (paletteEnum.values.map Name.pascal).toFinset.card = 2 := by decide
  have hwarnings : paletteEnum.warnings
      = [.collision "Color" "RED" "red" "Red", .collision "Color" "RED" "Red" "Red",
        .collision "Color" "green" "GREEN" "Green"] := by decide
  obtain ⟨hreports, hlength, -⟩ := (collision_warnings_exact [] "M").1 paletteEnum hvalues
  rw [hwarnings, hpositions] at hreports
  rw [hdistinct] at hlength
  exact ⟨hvalues, hpositions, hreports, hlength⟩

end ElmSchema

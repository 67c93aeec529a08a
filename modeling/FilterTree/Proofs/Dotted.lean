import FilterTree.Catalog.Path

namespace FilterTree

namespace Path

theorem segments_append (p q : String) : segments (p ++ "." ++ q) = segments p ++ segments q := by
  have split : (p ++ "." ++ q).toList = p.toList ++ '.' :: q.toList := by
    rw [String.toList_append, String.toList_append, List.append_assoc]
    rfl
  rw [segments, split, List.splitOn_append_cons_self, List.map_append]
  rfl

theorem segments_ne_nil (path : String) : segments path ≠ [] := by
  rw [segments, ne_eq, List.map_eq_nil_iff]
  exact List.splitOn_ne_nil '.' path.toList

theorem segments_eq_singleton {path : String} (plain : isDotted path = false) :
    segments path = [path] := by
  have free : '.' ∉ path.toList := by simpa [isDotted] using plain
  rw [segments, List.splitOn_eq_singleton free]
  simp

end Path

namespace Catalog

variable {catalog : Catalog} {table : String}

/-- A part that others follow leads to the table of its reference. -/
theorem follow?_cons (field : String) {rest : List String} (more : rest ≠ []) :
    catalog.follow? table (field :: rest) =
      (catalog.field? table field).bind fun info =>
        info.reference.bind fun next =>
          (catalog.follow? next rest).map fun r =>
            { r with label := info.label ++ Path.labelSeparator ++ r.label } := by
  cases rest with
  | nil => exact absurd rfl more
  | cons first rest =>
    rw [follow?]
    · simp only [bind, pure, Option.map_eq_bind]
      rfl
    · exact more

/-- A path without points names a field of the table. -/
theorem resolve?_plain {path : String} (plain : Path.isDotted path = false) :
    catalog.resolve? table path =
      (catalog.field? table path).map fun info => ⟨table, info, info.label⟩ := by
  rw [resolve?, Path.segments_eq_singleton plain]
  rfl

/-- The field at the end of the parts, with the labels gathered on the way and joined at the end. -/
def walk? (catalog : Catalog) (table : String) (labels : List String) : List String → Option Resolved
  | [] => none
  | [last] =>
    (catalog.field? table last).map fun info =>
      ⟨table, info, Path.labelSeparator.intercalate (labels ++ [info.label])⟩
  | field :: rest =>
    (catalog.field? table field).bind fun info =>
      info.reference.bind fun next => catalog.walk? next (labels ++ [info.label]) rest

/-- Labels that are joined in part are joined with those before them. -/
theorem intercalate_append_joined (separator : String) (labels : List String) (a b : String) :
    separator.intercalate (labels ++ [a ++ separator ++ b]) =
      separator.intercalate (labels ++ [a] ++ [b]) := by
  rw [List.append_assoc]
  cases labels with
  | nil => simp [String.intercalate_cons_cons]
  | cons first labels =>
    have nonempty := List.cons_ne_nil first labels
    rw [String.intercalate_append_of_ne_nil nonempty (List.cons_ne_nil _ _),
      String.intercalate_append_of_ne_nil nonempty (by simp)]
    simp [String.intercalate_cons_cons]

/-- The labels may as well be joined from the end of the path. -/
theorem walk?_eq (labels parts : List String) :
    catalog.walk? table labels parts =
      (catalog.follow? table parts).map fun r =>
        { r with label := Path.labelSeparator.intercalate (labels ++ [r.label]) } := by
  induction parts generalizing table labels with
  | nil => rfl
  | cons field rest ih =>
    cases rest with
    | nil => simp [walk?, follow?, Function.comp_def]
    | cons first rest =>
      have more := List.cons_ne_nil first rest
      rw [walk?, follow?_cons field more, Option.map_bind]
      · refine Option.bind_congr fun info _ => ?_
        rw [Function.comp_apply, Option.map_bind]
        refine Option.bind_congr fun next _ => ?_
        rw [Function.comp_apply, ih, Option.map_map]
        simp only [Function.comp_def, intercalate_append_joined]
      · exact more

theorem resolve?_eq_walk (catalog : Catalog) (table path : String) :
    catalog.resolve? table path = catalog.walk? table [] (Path.segments path) := by
  rw [walk?_eq, resolve?]
  simp

theorem follow?_append {front back : List String} (nonempty : front ≠ []) (more : back ≠ []) :
    catalog.follow? table (front ++ back) =
      (catalog.follow? table front).bind fun r₁ =>
        r₁.info.reference.bind fun next =>
          (catalog.follow? next back).map fun r₂ =>
            { r₂ with label := r₁.label ++ Path.labelSeparator ++ r₂.label } := by
  induction front generalizing table with
  | nil => exact absurd rfl nonempty
  | cons field rest ih =>
    have joined : rest ++ back ≠ [] := by simp [more]
    rw [List.cons_append, follow?_cons field joined]
    cases rest with
    | nil =>
      rw [List.nil_append, follow?, Option.bind_map]
      rfl
    | cons first rest =>
      have nonempty := List.cons_ne_nil first rest
      rw [follow?_cons field nonempty, Option.bind_assoc]
      refine Option.bind_congr fun info _ => ?_
      rw [Option.bind_assoc]
      refine Option.bind_congr fun next _ => ?_
      rw [ih nonempty, Option.map_bind, Option.bind_map]
      refine Option.bind_congr fun r₁ _ => ?_
      simp [Function.comp_def, Option.map_bind, String.append_assoc]

/-- The table that the references of these fields lead to, each sought in the table before it. -/
def reach? (catalog : Catalog) (table : String) (fields : List String) : Option String :=
  fields.foldlM (fun table field => (catalog.field? table field).bind (·.reference)) table

theorem reach?_cons (field : String) (rest : List String) :
    catalog.reach? table (field :: rest) =
      ((catalog.field? table field).bind (·.reference)).bind fun next => catalog.reach? next rest :=
  rfl

theorem follow?_cons_eq_none_iff (field : String) {rest : List String} (more : rest ≠ []) :
    catalog.follow? table (field :: rest) = none ↔
      ∀ next, (catalog.field? table field).bind (·.reference) = some next →
        catalog.follow? next rest = none := by
  rw [follow?_cons field more]
  simp only [Option.bind_eq_none_iff, Option.map_eq_none_iff, Option.bind_eq_some_iff]
  constructor
  · rintro lost next ⟨info, known, reference⟩
    exact lost info known next reference
  · rintro lost info known next reference
    exact lost next ⟨info, known, reference⟩

/-- The parts of a path lead nowhere exactly if one of them is not a field of the table that those before
it reach, or they reach none. -/
theorem follow?_eq_none_iff {parts : List String} (nonempty : parts ≠ []) :
    catalog.follow? table parts = none ↔
      ∃ before field after, parts = before ++ field :: after ∧
        (catalog.reach? table before).bind (catalog.field? · field) = none := by
  induction parts generalizing table with
  | nil => exact absurd rfl nonempty
  | cons field rest ih =>
    constructor
    · intro nowhere
      -- the first part is unknown or refers to no table, or a later one is the first that is unknown
      cases rest with
      | nil => exact ⟨[], field, [], rfl, Option.map_eq_none_iff.mp nowhere⟩
      | cons first rest =>
        have more := List.cons_ne_nil first rest
        rw [follow?_cons_eq_none_iff field more] at nowhere
        cases reached : (catalog.field? table field).bind (·.reference) with
        | none => exact ⟨[field], first, rest, rfl, by rw [reach?_cons, reached]; rfl⟩
        | some next =>
          obtain ⟨before, unknown, after, split, lost⟩ := (ih more).mp (nowhere next reached)
          refine ⟨field :: before, unknown, after, by rw [split, List.cons_append], ?_⟩
          rwa [reach?_cons, reached, Option.bind_some]
    · rintro ⟨before, unknown, after, split, lost⟩
      rcases List.cons_eq_append_iff.mp split with ⟨rfl, same⟩ | ⟨front, rfl, later⟩
      · cases same
        have missing : catalog.field? table field = none := lost
        cases rest with
        | nil => rw [follow?, missing, Option.map_none]
        | cons first rest =>
          rw [follow?_cons field (List.cons_ne_nil first rest), missing, Option.bind_none]
      · have more : rest ≠ [] := by simp [later]
        rw [follow?_cons_eq_none_iff field more]
        intro next reached
        rw [reach?_cons, reached, Option.bind_some] at lost
        exact (ih more).mpr ⟨front, unknown, after, later, lost⟩

/-- **Dotted paths resolve in parts.** A path of two, with a point between, leads to a field exactly if the
first leads to a field with a reference, and the second leads to that field from the table referred to.
The labels of both are joined. If the first field has no reference, or if any part is unknown where it is
sought, the path leads nowhere. -/
theorem resolve?_append_iff (catalog : Catalog) (table p q : String) :
    (∀ r, catalog.resolve? table (p ++ "." ++ q) = some r ↔
        ∃ r₁ next r₂, catalog.resolve? table p = some r₁ ∧ r₁.info.reference = some next ∧
          catalog.resolve? next q = some r₂ ∧
          r = { r₂ with label := r₁.label ++ " > " ++ r₂.label }) ∧
      (∀ r₁, catalog.resolve? table p = some r₁ → r₁.info.reference = none →
        catalog.resolve? table (p ++ "." ++ q) = none) ∧
      ∀ before field after, Path.segments (p ++ "." ++ q) = before ++ field :: after →
        (catalog.reach? table before).bind (catalog.field? · field) = none →
        catalog.resolve? table (p ++ "." ++ q) = none := by
  have law : catalog.resolve? table (p ++ "." ++ q) =
      (catalog.resolve? table p).bind fun r₁ => r₁.info.reference.bind fun next =>
        (catalog.resolve? next q).map fun r₂ =>
          { r₂ with label := r₁.label ++ Path.labelSeparator ++ r₂.label } := by
    rw [resolve?, Path.segments_append]
    exact follow?_append (Path.segments_ne_nil p) (Path.segments_ne_nil q)
  refine ⟨fun r => ?_, fun r₁ first dead => ?_, fun before field after split unknown => ?_⟩
  · rw [law]
    simp only [Option.bind_eq_some_iff, Option.map_eq_some_iff]
    constructor
    · rintro ⟨r₁, first, next, reference, r₂, second, rfl⟩
      exact ⟨r₁, next, r₂, first, reference, second, rfl⟩
    · rintro ⟨r₁, next, r₂, first, reference, second, rfl⟩
      exact ⟨r₁, first, next, reference, r₂, second, rfl⟩
  · rw [law, first, Option.bind_some, dead, Option.bind_none]
  · exact (follow?_eq_none_iff (Path.segments_ne_nil _)).mpr ⟨before, field, after, split, unknown⟩

/-- Two references lead to the name of a department; a point too many leads nowhere. -/
example :
    (sample.resolve? "incident" "assigned_to.department.name").map (·.label) =
        some "Assigned to > Department > Name" ∧
      sample.resolve? "incident" "assigned_to." = none := by decide

end Catalog

end FilterTree

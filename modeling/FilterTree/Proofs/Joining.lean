import FilterTree.Query
import FilterTree.Proofs.Row

namespace FilterTree

namespace Text

/-- The two texts with the separator between them; an empty text takes no separator. -/
def glue (separator t u : String) : String :=
  if t = "" then u else if u = "" then t else t ++ separator ++ u

@[simp] theorem glue_empty_left (separator u : String) : glue separator "" u = u := rfl

@[simp] theorem glue_empty_right (separator t : String) : glue separator t "" = t := by
  by_cases h : t = "" <;> simp [glue, h]

theorem glue_of_ne {t u : String} (ht : t ≠ "") (hu : u ≠ "") (separator : String) :
    glue separator t u = t ++ separator ++ u := by
  simp [glue, ht, hu]

theorem glue_eq_empty_iff {separator t u : String} :
    glue separator t u = "" ↔ t = "" ∧ u = "" := by
  by_cases ht : t = ""
  · simp [ht]
  · by_cases hu : u = ""
    · simp [hu]
    · simp [glue_of_ne ht hu, ht, hu]

theorem glue_assoc (separator t u v : String) :
    glue separator (glue separator t u) v = glue separator t (glue separator u v) := by
  by_cases ht : t = ""
  · simp [ht]
  by_cases hu : u = ""
  · simp [hu]
  by_cases hv : v = ""
  · simp [hv]
  have left : t ++ separator ++ u ≠ "" := by simp [ht]
  have right : u ++ separator ++ v ≠ "" := by simp [hu]
  rw [glue_of_ne ht hu, glue_of_ne hu hv, glue_of_ne left hv, glue_of_ne ht right]
  simp only [String.append_assoc]

theorem joinFilled_cons (separator t : String) (rest : List String) :
    joinFilled separator (t :: rest) = glue separator t (joinFilled separator rest) := by
  have filled : ∀ texts : List String, (∀ t ∈ texts, t ≠ "") → texts ≠ [] →
      separator.intercalate texts ≠ "" := by
    intro texts nonempty ne
    obtain ⟨u, more, rfl⟩ := List.exists_cons_of_ne_nil ne
    have first := nonempty u List.mem_cons_self
    cases more <;> simp [first]
  by_cases ht : t = ""
  · rw [ht, joinFilled_empty_cons, glue_empty_left]
  unfold joinFilled
  rw [List.filter_cons_of_pos (by simpa using ht)]
  by_cases alone : rest.filter (· ≠ "") = []
  · rw [alone, String.intercalate_nil, glue_empty_right, String.intercalate_singleton]
  · have more := filled _ (by simp) alone
    rw [glue_of_ne ht more, String.intercalate_cons_of_ne_nil alone]

end Text

theorem Condition.predicate_ne_empty {c : Condition} (h : c.isComplete = true) :
    c.predicate ≠ "" := by
  have field := (isComplete_iff.mp h).1
  simp [predicate, field]

theorem Condition.encode_eq_empty_iff {c : Condition} : c.encode = "" ↔ c.isComplete = false := by
  unfold encode
  cases h : c.isComplete with
  | false => simp
  | true => simp [predicate_ne_empty h]

namespace Forest

/-- The text of a row whose parts are joined by the separator. -/
def text (separator : String) (f : Forest) : String := Text.joinFilled separator (encode f)

@[simp] theorem text_nil (separator : String) : text separator [] = "" := Text.joinFilled_nil _

theorem text_cons (separator : String) (n : Node) (rest : Forest) :
    text separator (n :: rest) = Text.glue separator n.encode (text separator rest) :=
  Text.joinFilled_cons _ _ _

@[simp] theorem text_condition (separator : String) (c : Condition) (rest : Forest) :
    text separator (.condition c :: rest) = Text.glue separator c.encode (text separator rest) :=
  text_cons _ _ _

@[simp] theorem text_group (separator : String) (g : Group) (rest : Forest) :
    text separator (.group g :: rest) =
      Text.glue separator (text g.kind.separator g.children) (text separator rest) :=
  text_cons _ _ _

theorem text_append (separator : String) (f g : Forest) :
    text separator (f ++ g) = Text.glue separator (text separator f) (text separator g) := by
  induction f with
  | nil => simp
  | cons n rest ih => rw [List.cons_append, text_cons, text_cons, ih, Text.glue_assoc]

/-- A row shows nothing exactly if none of its conditions is complete. -/
theorem text_eq_empty_iff {separator : String} {f : Forest} :
    text separator f = "" ↔ ∀ c ∈ leaves f, c.isComplete = false := by
  induction f using induct generalizing separator with
  | nil => simp
  | condition c rest ih =>
    rw [text_condition, Text.glue_eq_empty_iff, Condition.encode_eq_empty_iff, ih, leaves_condition,
      List.forall_mem_cons]
  | group g rest ihg ih =>
    rw [text_group, Text.glue_eq_empty_iff, ihg, ih, leaves_group, List.forall_mem_append]

end Forest

theorem Model.encode_eq_text (m : Model) : m.encode = Forest.text separator m.forest := rfl

theorem Model.encode_ofForest {f : Forest} (h : Forest.OnlyGroups f) :
    (ofForest f).encode = Forest.text separator f := by
  rw [encode_eq_text, forest_ofForest h]

end FilterTree

import FilterTree.Draft
import FilterTree.Proofs.Prefix
import FilterTree.Proofs.Recital

namespace FilterTree

namespace Text

def Begins (t u : String) : Prop := ∃ v, u = t ++ v

variable {t u v : String}

theorem begins_refl (t : String) : Begins t t := ⟨"", by simp⟩

theorem begins_empty (t : String) : Begins "" t := ⟨t, by simp⟩

theorem Begins.trans (h : Begins t u) (h' : Begins u v) : Begins t v := by
  obtain ⟨x, rfl⟩ := h
  obtain ⟨y, rfl⟩ := h'
  exact ⟨x ++ y, by rw [String.append_assoc]⟩

theorem begins_glue_left (separator t u : String) : Begins t (glue separator t u) := by
  by_cases ht : t = ""
  · rw [ht]; exact begins_empty _
  by_cases hu : u = ""
  · rw [hu, glue_empty_right]; exact begins_refl t
  · rw [glue_of_ne ht hu, String.append_assoc]; exact ⟨_, rfl⟩

theorem Begins.glue_right (h : Begins u v) (separator t : String) :
    Begins (glue separator t u) (glue separator t v) := by
  by_cases ht : t = ""
  · rwa [ht, glue_empty_left, glue_empty_left]
  by_cases hu : u = ""
  · rw [hu, glue_empty_right]; exact begins_glue_left _ _ _
  obtain ⟨x, rfl⟩ := h
  have hv : u ++ x ≠ "" := by simp [hu]
  rw [glue_of_ne ht hu, glue_of_ne ht hv]
  exact ⟨x, by simp only [String.append_assoc]⟩

end Text

namespace Forest

theorem keep_zero (f : Forest) : keep 0 f = [] := by
  induction f using induct with
  | nil => rfl
  | condition c rest ih => rw [keep_cons, Nat.zero_sub, ih]; rfl
  | group g rest ihg ih =>
    rw [keep_cons, Nat.zero_sub, ih, List.append_nil]
    rcases Node.keep_group_cases 0 g with ⟨_, kept⟩ | ⟨inhabited, _⟩
    · exact kept
    · exact absurd ihg inhabited

theorem keep_condition (n : Nat) (c : Condition) (rest : Forest) :
    keep (n + 1) (.condition c :: rest) = .condition c :: keep n rest := by
  have one : n + 1 - (Node.condition c).leafCount = n := Nat.add_sub_cancel n 1
  rw [keep_cons, one]
  rfl

/-- A group of a full forest is kept with the first of its leaves. -/
theorem keep_group {n : Nat} (positive : n ≠ 0) {g : Group} {rest : Forest}
    (full : Full (.group g :: rest)) :
    keep n (.group g :: rest) =
      .group { g with children := keep n g.children } ::
        keep (n - leafCount g.children) rest := by
  obtain ⟨inhabited, below, _⟩ := (full_group g rest).mp full
  rw [keep_cons]
  rcases Node.keep_group_cases n g with ⟨gone, _⟩ | ⟨_, kept⟩
  · have shown := leafCount_pos below inhabited
    have count := leafCount_keep n g.children
    rw [gone, leafCount_nil] at count
    omega
  · rw [kept]; rfl

theorem keep_of_le {n : Nat} {f : Forest} (full : Full f) (all : leafCount f ≤ n) :
    keep n f = f := by
  induction f using induct generalizing n with
  | nil => rfl
  | condition c rest ih =>
    rw [leafCount_condition] at all
    obtain ⟨m, rfl⟩ : ∃ m, n = m + 1 := ⟨n - 1, by omega⟩
    rw [keep_condition, ih full (by omega)]
  | group g rest ihg ih =>
    obtain ⟨inhabited, below, later⟩ := (full_group g rest).mp full
    have shown := leafCount_pos below inhabited
    rw [leafCount_group] at all
    rw [keep_group (by omega) full, ihg below (by omega), ih later (by omega)]

/-- The first leaves of a full forest keep their joins. -/
theorem joined_keep (later first : Option Join) (n : Nat) {f : Forest} (full : Full f) :
    joined later first (keep n f) = (joined later first f).take n := by
  induction f using induct generalizing later first n with
  | nil => simp [joined]
  | condition c rest ih =>
    cases n with
    | zero => rw [keep_zero, List.take_zero]; rfl
    | succ n =>
      rw [keep_condition, joined_condition, joined_condition, ih _ _ _ full, List.take_succ_cons]
  | group g rest ihg ih =>
    obtain ⟨_, below, later⟩ := (full_group g rest).mp full
    by_cases zero : n = 0
    · rw [zero, keep_zero, List.take_zero]; rfl
    rw [keep_group zero full, joined_group, joined_group, ihg _ _ _ below, ih _ _ _ later,
      List.take_append, length_joined]

/-- The text of the first leaves is where the text of a full forest begins. -/
theorem begins_text_keep (separator : String) (n : Nat) {f : Forest} (full : Full f) :
    Text.Begins (text separator (keep n f)) (text separator f) := by
  induction f using induct generalizing separator n with
  | nil => exact Text.begins_refl _
  | condition c rest ih =>
    cases n with
    | zero => rw [keep_zero]; exact Text.begins_empty _
    | succ n =>
      rw [keep_condition, text_condition, text_condition]
      exact (ih _ _ full).glue_right _ _
  | group g rest ihg ih =>
    obtain ⟨_, below, later⟩ := (full_group g rest).mp full
    by_cases zero : n = 0
    · rw [zero, keep_zero]; exact Text.begins_empty _
    rw [keep_group zero full, text_group, text_group]
    -- either the cut is inside the group, and nothing after it is kept, or the group is kept whole
    rcases Nat.le_total n (leafCount g.children) with inside | behind
    · rw [Nat.sub_eq_zero_of_le inside, keep_zero, text_nil, Text.glue_empty_right]
      exact (ihg _ _ below).trans (Text.begins_glue_left _ _ _)
    · rw [keep_of_le below behind]
      exact (ih _ _ later).glue_right _ _

end Forest

/-- The crumbs of one root group, joined as roots are. -/
def Group.crumbs (root : Nat) (g : Group) : List Crumb :=
  g.trail root (if root = 0 then none else some .newQuery)

namespace Group

theorem getElem?_crumbs {root leaf : Nat} {g : Group} {crumb : Crumb}
    (h : (g.crumbs root)[leaf]? = some crumb) : crumb.root = root ∧ crumb.leaf = leaf := by
  rw [crumbs, trail, List.getElem?_mapIdx, Option.map_eq_some_iff] at h
  obtain ⟨x, _, rfl⟩ := h
  exact ⟨rfl, rfl⟩

theorem length_crumbs (root : Nat) (g : Group) :
    (g.crumbs root).length = Forest.leafCount g.children := by
  rw [crumbs, trail, List.length_mapIdx]
  exact Forest.length_joined (some g.kind.join) _ g.children

theorem crumbs_keep (root n : Nat) {g : Group} (full : Forest.Full g.children) :
    crumbs root { g with children := Forest.keep n g.children } = (g.crumbs root).take n := by
  have kept (first : Option Join) :
      (Node.group { g with children := Forest.keep n g.children }).joined first =
        ((Node.group g).joined first).take n := Forest.joined_keep (some g.kind.join) first n full
  apply List.ext_getElem?
  intro i
  simp only [crumbs, trail, kept, List.getElem?_mapIdx, List.getElem?_take]
  split <;> rfl

end Group

/-- An entry of several lists in a row stands in one of them. -/
theorem split_of_getElem?_flatten {α : Type} {lists : List (List α)} {i : Nat} {a : α}
    (h : lists.flatten[i]? = some a) :
    ∃ before l after j, lists = before ++ l :: after ∧ l[j]? = some a ∧
      i = before.flatten.length + j := by
  induction lists generalizing i with
  | nil => simp at h
  | cons l rest ih =>
    rw [List.flatten_cons] at h
    by_cases here : i < l.length
    · rw [List.getElem?_append_left here] at h
      exact ⟨[], l, rest, i, rfl, h, by simp⟩
    · rw [List.getElem?_append_right (by omega)] at h
      obtain ⟨before, l', after, j, rfl, entry, index⟩ := ih h
      refine ⟨l :: before, l', after, j, rfl, entry, ?_⟩
      rw [List.flatten_cons, List.length_append]
      omega

namespace Model

theorem trail_eq_flatten (roots : List Group) :
    (⟨roots⟩ : Model).trail = (roots.mapIdx Group.crumbs).flatten := rfl

theorem length_trail (m : Model) : m.trail.length = m.leafCount := by
  rw [← List.length_map fun crumb : Crumb => crumb.id, map_id_trail, List.length_map]
  exact Forest.length_leaves m.forest

theorem trail_append (before : List Group) (g : Group) (after : List Group) :
    ∃ later, (⟨before ++ g :: after⟩ : Model).trail =
      (⟨before⟩ : Model).trail ++ (g.crumbs before.length ++ later) := by
  rw [trail_eq_flatten, trail_eq_flatten, List.mapIdx_append, List.flatten_append, List.mapIdx_cons,
    List.flatten_cons, Nat.zero_add]
  exact ⟨_, rfl⟩

/-- A crumb tells the root below which its leaf stands and the ordinal of the leaf; its index counts
the leaves of the roots before as well. -/
theorem crumb_place {m : Model} {i : Nat} {crumb : Crumb} (h : m.trail[i]? = some crumb) :
    ∃ before g after, m.roots = before ++ g :: after ∧ crumb.root = before.length ∧
      crumb.leaf < Forest.leafCount g.children ∧
      i = (⟨before⟩ : Model).trail.length + crumb.leaf := by
  obtain ⟨_, _, _, leaf, parts, entry, index⟩ := split_of_getElem?_flatten h
  obtain ⟨before, rest, roots, rfl, others⟩ := List.mapIdx_eq_append_iff.mp parts
  obtain ⟨g, after, rfl, rfl, _⟩ := List.mapIdx_eq_cons_iff.mp others
  rw [Nat.zero_add] at entry
  obtain ⟨root, rfl⟩ := Group.getElem?_crumbs entry
  refine ⟨before, g, after, roots, root, ?_, index⟩
  rw [← Group.length_crumbs before.length g]
  exact (List.getElem?_eq_some_iff.mp entry).1

/-- What a cut does at a leaf that is there. -/
theorem cut_append {before after : List Group} {g : Group} {leaf : Nat}
    (full : Forest.Full [.group g]) :
    (⟨before ++ g :: after⟩ : Model).cut before.length leaf =
      if after ≠ [] ∨ leaf + 1 < Forest.leafCount g.children then
        ⟨⟨before ++ [{ g with children := Forest.keep (leaf + 1) g.children }]⟩, true⟩
      else ⟨⟨before ++ g :: after⟩, false⟩ := by
  have more : before.length + 1 < (before ++ g :: after).length ↔ after ≠ [] := by
    rw [List.length_append, List.length_cons, ← List.length_pos_iff]
    omega
  have kept : (Node.group g).keep (leaf + 1) =
      [.group { g with children := Forest.keep (leaf + 1) g.children }] := by
    have whole := Forest.keep_group (Nat.succ_ne_zero leaf) full
    rwa [Forest.keep_cons, Forest.keep_nil, List.append_nil, Forest.keep_nil] at whole
  have roots : (forest ⟨before ++ g :: after⟩).take before.length ++
      [Node.group { g with children := Forest.keep (leaf + 1) g.children }] =
      forest ⟨before ++ [{ g with children := Forest.keep (leaf + 1) g.children }]⟩ := by
    simp [forest]
  have here : (before ++ g :: after)[before.length]? = some g := by simp
  simp only [cut, here, more, kept, roots, ofForest_forest]

theorem length_trail_append (before : List Group) (g : Group) (after : List Group) :
    (⟨before ++ g :: after⟩ : Model).trail.length =
      (⟨before⟩ : Model).trail.length +
        (Forest.leafCount g.children + Forest.leafCount (after.map .group)) := by
  simp only [length_trail, leafCount, forest, List.map_append, List.map_cons,
    Forest.leafCount_append, Forest.leafCount_group]

section
variable {before after : List Group} {g : Group} {n : Nat}

/-- The trail of a model whose last root is kept in part, and no root after it. -/
theorem trail_keep (full : Forest.Full g.children) (within : n ≤ Forest.leafCount g.children) :
    (⟨before ++ [{ g with children := Forest.keep n g.children }]⟩ : Model).trail =
      (⟨before ++ g :: after⟩ : Model).trail.take ((⟨before⟩ : Model).trail.length + n) := by
  obtain ⟨later, whole⟩ := trail_append before g after
  rw [whole, List.take_length_add_append, List.take_append_of_le_length
    (by rwa [Group.length_crumbs]), ← Group.crumbs_keep _ _ full, trail_eq_flatten,
    trail_eq_flatten, List.mapIdx_append, List.flatten_append]
  simp

theorem begins_encode_keep (full : Forest.Full g.children) :
    Text.Begins (⟨before ++ [{ g with children := Forest.keep n g.children }]⟩ : Model).encode
      (⟨before ++ g :: after⟩ : Model).encode := by
  simp only [encode_eq_text, forest, List.map_append, List.map_cons, List.map_nil,
    Forest.text_append, Forest.text_group, Forest.text_nil, Text.glue_empty_right]
  exact ((Forest.begins_text_keep _ n full).trans (Text.begins_glue_left _ _ _)).glue_right _ _

end

theorem cut_unchanged {m : Model} {root leaf : Nat} (h : (m.cut root leaf).changed = false) :
    (m.cut root leaf).model = m := by
  unfold cut at h ⊢
  split
  · rfl
  · split
    · rename_i found here
      simp only [found, here, ↓reduceIte, Bool.true_eq_false] at h
    · rfl

end Model

/-- A draft becomes the model that is cut at the crumb, and tells whether anything changed. -/
theorem Draft.perform_cutTo (d : Draft) (crumb : Crumb) :
    (d.perform (.cutTo crumb)).1.model = (d.model.cut crumb.root crumb.leaf).model ∧
      (d.perform (.cutTo crumb)).2 = (d.model.cut crumb.root crumb.leaf).changed := by
  simp only [perform]
  split
  · rename_i changed
    exact ⟨rfl, changed.symm⟩
  · rename_i kept
    rw [Bool.not_eq_true] at kept
    exact ⟨(Model.cut_unchanged kept).symm, kept.symm⟩

/-- **A cut at a crumb keeps the trail up to it.** In a model that is accepted, the cut at crumb `i`
leaves the first `i + 1` crumbs just as they are. It changes the model unless that is the last crumb,
and the text of what is left is where the text of the model begins. A draft that is cut to the crumb
becomes just this. -/
theorem Model.cut_trail {m : Model} (accepted : m.Accepted) {i : Nat} {crumb : Crumb}
    (found : m.trail[i]? = some crumb) :
    (m.cut crumb.root crumb.leaf).model.trail = m.trail.take (i + 1) ∧
      ((m.cut crumb.root crumb.leaf).changed = true ↔ i + 1 ≠ m.trail.length) ∧
      Text.Begins (m.cut crumb.root crumb.leaf).model.encode m.encode ∧
      ∀ d : Draft, d.model = m →
        (d.perform (.cutTo crumb)).1.model = (m.cut crumb.root crumb.leaf).model ∧
          (d.perform (.cutTo crumb)).2 = (m.cut crumb.root crumb.leaf).changed := by
  suffices left : (m.cut crumb.root crumb.leaf).model.trail = m.trail.take (i + 1) ∧
      ((m.cut crumb.root crumb.leaf).changed = true ↔ i + 1 ≠ m.trail.length) ∧
      Text.Begins (m.cut crumb.root crumb.leaf).model.encode m.encode by
    refine ⟨left.1, left.2.1, left.2.2, ?_⟩
    rintro d rfl
    exact d.perform_cutTo crumb
  obtain ⟨_, full, _⟩ := valid_iff.mp (accepted_iff_valid.mp accepted)
  obtain ⟨before, g, after, roots, root, shown, rfl⟩ := crumb_place found
  obtain ⟨roots⟩ := m
  subst roots
  have parts : forest ⟨before ++ g :: after⟩ =
      before.map .group ++ ([.group g] ++ after.map .group) := by simp [forest]
  rw [parts, Forest.full_append, Forest.full_append] at full
  obtain ⟨_, whole, full⟩ := full
  have below : Forest.Full g.children := ((Forest.full_group g []).mp whole).2.1
  have length := length_trail_append before g after
  rw [root, cut_append whole]
  split
  · rename_i dropped
    refine ⟨trail_keep below shown, iff_of_true rfl ?_, begins_encode_keep below⟩
    rcases dropped with ne | fewer
    · have := Forest.leafCount_pos full (mt List.map_eq_nil_iff.mp ne)
      omega
    · omega
  · rename_i last
    obtain ⟨rfl, fewer⟩ : after = [] ∧ ¬ crumb.leaf + 1 < Forest.leafCount g.children := by
      simpa using last
    have all : (⟨before⟩ : Model).trail.length + crumb.leaf + 1 =
        (⟨before ++ [g]⟩ : Model).trail.length := by
      rw [length, List.map_nil, Forest.leafCount_nil]
      omega
    exact ⟨by rw [all, List.take_length], iff_of_false Bool.false_ne_true (not_not_intro all),
      Text.begins_refl _⟩

/-- The second crumb stands three groups down; what follows it in these groups and the second root
are cut off. -/
theorem Model.cut_trail_branching :
    let crumb : Crumb := ⟨0, 1, ⟨"b"⟩, some .and, "b = 1"⟩
    let cut := branching.cut crumb.root crumb.leaf
    branching.Accepted ∧ branching.trail[1]? = some crumb ∧
      cut.model.trail = branching.trail.take 2 ∧
      (cut.changed = true ↔ 2 ≠ branching.trail.length) ∧
      Text.Begins cut.model.encode branching.encode ∧ cut.model.encode = "a=1^b=1" := by
  intro crumb cut
  have accepted : branching.Accepted := rfl
  have found : branching.trail[1]? = some crumb := by decide
  obtain ⟨trail, changed, begins, _⟩ := cut_trail accepted found
  exact ⟨accepted, found, trail, changed, begins, rfl⟩

end FilterTree

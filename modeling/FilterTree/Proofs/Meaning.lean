import FilterTree.Model
import FilterTree.Proofs.Joining
import FilterTree.Proofs.Tidying

/-!
# What a deletion means

Deleting a condition is compared with emptying it, which takes its predicate out of the query and
leaves the groups as they are.
-/

namespace FilterTree

namespace Text

/-- `t` is the same text as `u`, or a shorter one if something is lost; both are empty or none is. -/
structure Shortens (lost : Prop) (t u : String) : Prop where
  empty : t = "" ↔ u = ""
  same : ¬ lost → t = u
  shorter : lost → t.length < u.length

variable {lost lost' : Prop} {t t' u u' v : String}

theorem Shortens.refl (t : String) : Shortens False t t := ⟨.rfl, fun _ => rfl, False.elim⟩

theorem Shortens.of_iff (h : Shortens lost t u) (iff : lost ↔ lost') : Shortens lost' t u :=
  ⟨h.empty, fun kept => h.same (mt iff.mp kept), fun loss => h.shorter (iff.mpr loss)⟩

theorem Shortens.length_le (h : Shortens lost t u) : t.length ≤ u.length := by
  by_cases loss : lost
  · exact Nat.le_of_lt (h.shorter loss)
  · rw [h.same loss]

theorem Shortens.eq_iff (h : Shortens lost t u) : t = u ↔ ¬ lost := by
  refine ⟨fun eq loss => ?_, h.same⟩
  have := h.shorter loss
  rw [eq] at this
  exact Nat.lt_irrefl _ this

theorem Shortens.trans (h : Shortens lost t u) (h' : Shortens lost' u v) :
    Shortens (lost ∨ lost') t v := by
  refine ⟨h.empty.trans h'.empty, fun kept => ?_, fun loss => ?_⟩
  · rw [not_or] at kept
    exact (h.same kept.1).trans (h'.same kept.2)
  · have := h.length_le
    have := h'.length_le
    rcases loss with loss | loss
    · have := h.shorter loss
      omega
    · have := h'.shorter loss
      omega

theorem length_glue (separator t u : String) :
    (glue separator t u).length =
      t.length + u.length + if t = "" ∨ u = "" then 0 else separator.length := by
  by_cases ht : t = ""
  · simp [ht]
  · by_cases hu : u = ""
    · simp [hu]
    · simp only [glue_of_ne ht hu, String.length_append, ht, hu, or_self, ↓reduceIte]
      omega

theorem Shortens.glue (separator : String) (h : Shortens lost t t') (h' : Shortens lost' u u') :
    Shortens (lost ∨ lost') (glue separator t u) (glue separator t' u') := by
  refine ⟨?_, fun kept => ?_, fun loss => ?_⟩
  · rw [glue_eq_empty_iff, glue_eq_empty_iff, h.empty, h'.empty]
  · rw [not_or] at kept
    rw [h.same kept.1, h'.same kept.2]
  · have := h.length_le
    have := h'.length_le
    simp only [length_glue, h.empty, h'.empty]
    rcases loss with loss | loss
    · have := h.shorter loss
      omega
    · have := h'.shorter loss
      omega

end Text

def Node.shows (n : Node) : Bool := n.leaves.any Condition.isComplete

theorem Node.shows_iff {n : Node} : n.shows = true ↔ n.encode ≠ "" := by
  have single : Forest.text "" [n] = n.encode := by simp [Forest.text_cons]
  rw [← single, ne_eq, Forest.text_eq_empty_iff, Forest.leaves_cons, Forest.leaves_nil,
    List.append_nil]
  simp [shows]

namespace Forest

/-- In a run of AND groups of the row, at least two show something. -/
def FoldsShown (row : Forest) : Prop :=
  ∃ run, run <:+: row ∧ (∀ n ∈ run, n.isAnd = true) ∧ 2 ≤ run.countP Node.shows

/-- In the run of AND groups with which the row begins, one shows something. -/
def LeadsShown (row : Forest) : Prop :=
  ∃ run, run <+: row ∧ (∀ n ∈ run, n.isAnd = true) ∧ 1 ≤ run.countP Node.shows

theorem not_foldsShown_nil : ¬ FoldsShown [] := by
  rintro ⟨run, within, _, two⟩
  rw [List.infix_nil.mp within] at two
  cases two

theorem not_leadsShown_nil : ¬ LeadsShown [] := by
  rintro ⟨run, within, _, one⟩
  rw [List.prefix_nil.mp within] at one
  cases one

theorem leadsShown_cons {n : Node} {rest : Forest} :
    LeadsShown (n :: rest) ↔ n.isAnd = true ∧ (n.shows = true ∨ LeadsShown rest) := by
  constructor
  · rintro ⟨run, leads, ands, one⟩
    rcases List.prefix_cons_iff.mp leads with rfl | ⟨more, rfl, begins⟩
    · cases one
    · obtain ⟨first, ands⟩ := List.forall_mem_cons.mp ands
      refine ⟨first, ?_⟩
      cases shows : n.shows with
      | true => exact .inl rfl
      | false => exact .inr ⟨more, begins, ands, by simpa [List.countP_cons, shows] using one⟩
  · rintro ⟨first, shows | ⟨run, leads, ands, one⟩⟩
    · exact ⟨[n], ⟨rest, rfl⟩, by simpa using first, by simp [shows]⟩
    · refine ⟨n :: run, List.prefix_cons_inj n |>.mpr leads,
        List.forall_mem_cons.mpr ⟨first, ands⟩, ?_⟩
      rw [List.countP_cons]
      omega

theorem foldsShown_cons {n : Node} {rest : Forest} :
    FoldsShown (n :: rest) ↔
      n.isAnd = true ∧ n.shows = true ∧ LeadsShown rest ∨ FoldsShown rest := by
  constructor
  · rintro ⟨run, within, ands, two⟩
    rcases List.infix_cons_iff.mp within with leads | within
    · rcases List.prefix_cons_iff.mp leads with rfl | ⟨more, rfl, begins⟩
      · cases two
      · obtain ⟨first, ands⟩ := List.forall_mem_cons.mp ands
        cases shows : n.shows with
        | true =>
          refine .inl ⟨first, rfl, more, begins, ands, ?_⟩
          simpa [List.countP_cons, shows] using two
        | false =>
          refine .inr ⟨more, begins.isInfix, ands, ?_⟩
          simpa [List.countP_cons, shows] using two
    · exact .inr ⟨run, within, ands, two⟩
  · rintro (⟨first, shows, run, leads, ands, one⟩ | ⟨run, within, ands, two⟩)
    · refine ⟨n :: run, (List.prefix_cons_inj n |>.mpr leads).isInfix,
        List.forall_mem_cons.mpr ⟨first, ands⟩, ?_⟩
      rw [List.countP_cons, if_pos shows]
      omega
    · exact ⟨run, List.infix_cons within, ands, two⟩

/-- Folding two AND groups of an OR group loses a separator if both show something. -/
theorem shortens_fold {a b : Group} (later : String) (ha : a.kind = .and) (hb : b.kind = .and) :
    Text.Shortens ((Node.group a).shows = true ∧ (Node.group b).shows = true)
      (Text.glue Kind.or.separator (text Kind.and.separator (a.children ++ b.children)) later)
      (Text.glue Kind.or.separator (Node.group a).encode
        (Text.glue Kind.or.separator (Node.group b).encode later)) := by
  have texts (g : Group) (and : g.kind = .and) :
      (Node.group g).encode = text Kind.and.separator g.children := by
    rw [← and]; rfl
  rw [Node.shows_iff, Node.shows_iff, texts a ha, texts b hb, text_append, ← Text.glue_assoc]
  generalize text Kind.and.separator a.children = t
  generalize text Kind.and.separator b.children = u
  by_cases ht : t = ""
  · simpa [ht] using Text.Shortens.refl _
  by_cases hu : u = ""
  · simpa [hu] using Text.Shortens.refl _
  have pair : Text.Shortens (t ≠ "" ∧ u ≠ "") (Text.glue Kind.and.separator t u)
      (Text.glue Kind.or.separator t u) := by
    refine ⟨?_, fun kept => absurd ⟨ht, hu⟩ kept, fun _ => ?_⟩
    · rw [Text.glue_eq_empty_iff, Text.glue_eq_empty_iff]
    · have shorter : Kind.and.separator.length < Kind.or.separator.length := by decide
      simp only [Text.length_glue, ht, hu, or_self, ↓reduceIte]
      omega
  exact (pair.glue _ (Text.Shortens.refl later)).of_iff (iff_of_eq (or_false _))

/-- The AND group with which a merged row begins shows something exactly if the run of AND groups it
was made of does. -/
theorem shows_head_mergeAnds (f : Forest) :
    (∀ b ∈ (mergeAnds f).head?, b.isAnd = true → (b.shows = true ↔ LeadsShown f)) ∧
      ((∀ b ∈ (mergeAnds f).head?, b.isAnd = false) → ¬ LeadsShown f) := by
  induction f using mergeAnds_induct with
  | nil => exact ⟨nofun, fun _ => not_leadsShown_nil⟩
  | stay n rest apart ih =>
    refine ⟨?_, fun other leads => ?_⟩
    · rintro _ ⟨⟩ and
      have alone : ¬ LeadsShown rest := ih.2 (apart and)
      simp [leadsShown_cons, and, alone]
    · have := other n rfl
      rw [(leadsShown_cons.mp leads).1] at this
      cases this
  | fold a b rest after ha hb _ ih =>
    refine ⟨?_, fun other => ?_⟩
    · rintro _ ⟨⟩ _
      have inner := ih.1 (.group b) rfl (isAnd_group.mpr hb)
      rw [leadsShown_cons, ← inner, isAnd_group]
      simp only [Node.shows, Node.leaves, leaves_append, List.any_append, Bool.or_eq_true, ha,
        true_and]
    · have not_and := other _ rfl
      simp [Node.isAnd, ha] at not_and

theorem text_mergeAnds_and (f : Forest) :
    text Kind.and.separator (mergeAnds f) = text Kind.and.separator f := by
  induction f using mergeAnds_induct with
  | nil => rfl
  | stay n rest _ ih => rw [text_cons, text_cons, ih]
  | fold a b rest after ha hb _ ih =>
    rw [text_group, ha, text_append, Text.glue_assoc, text_group, ha, ← ih, text_group, hb]

theorem shortens_mergeAnds_or (f : Forest) :
    Text.Shortens (FoldsShown f) (text Kind.or.separator (mergeAnds f))
      (text Kind.or.separator f) := by
  induction f using mergeAnds_induct with
  | nil => exact (Text.Shortens.refl _).of_iff (iff_of_false id not_foldsShown_nil)
  | stay n rest apart ih =>
    rw [text_cons, text_cons]
    refine ((Text.Shortens.refl n.encode).glue _ ih).of_iff ?_
    rw [false_or, foldsShown_cons]
    refine ⟨.inr, ?_⟩
    rintro (⟨and, _, leads⟩ | folds)
    · exact absurd leads ((shows_head_mergeAnds rest).2 (apart and))
    · exact folds
  | fold a b rest after ha hb merged ih =>
    have head := (shows_head_mergeAnds rest).1
    rw [merged] at head
    have inner := head (.group b) rfl (isAnd_group.mpr hb)
    -- the two groups are first joined as before, and then folded
    rw [text_cons _ (.group b)] at ih
    have joined := (Text.Shortens.refl (Node.group a).encode).glue Kind.or.separator ih
    have folded := shortens_fold (text Kind.or.separator after) ha hb
    rw [text_group, text_cons _ (.group a)]
    simp only [ha]
    refine (folded.trans joined).of_iff ?_
    rw [false_or, foldsShown_cons, ← inner, isAnd_group]
    simp only [ha, true_and]

/-- Tidying a group keeps its text, unless an OR group is folded. -/
theorem shortens_settle (separator : String) (id : NodeId) (kind : Kind) (row : Forest) :
    Text.Shortens (kind = .or ∧ FoldsShown row) (text separator (Group.settle id kind row))
      (text kind.separator row) := by
  have settled : text separator (Group.settle id kind row) =
      text kind.separator (mergeAnds row) := by
    rcases Group.settle_cases id kind row with ⟨rfl, settled⟩ | ⟨_, kind', settled, one | more⟩
    · rw [settled]; rfl
    · obtain ⟨⟨n, merged⟩, rfl⟩ := one
      rw [settled, text_group, merged, text_cons, text_cons]
      simp only [text_nil, Text.glue_empty_right]
    · rw [settled, text_group, text_nil, Text.glue_empty_right, more.2]
  rw [settled]
  cases kind with
  | and =>
    rw [text_mergeAnds_and]
    exact (Text.Shortens.refl _).of_iff (by simp)
  | or => exact (shortens_mergeAnds_or row).of_iff (by simp)

end Forest

/-- Empties the field of the condition, which is then not complete and shows nothing. -/
def Patch.emptied : Patch := .ofField ""

theorem Condition.encode_emptied (c : Condition) : (c.patch .emptied).encode = "" :=
  encode_eq_empty_iff.mpr rfl

/-- What `Model.update` does to a group and the row after it. -/
def Group.patchIn (condition : NodeId) (p : Patch) (g : Group) (rest : Forest) : Option Forest :=
  (Forest.patch? condition p g.children).map fun patched =>
    .group { g with children := patched } :: rest

namespace Forest

variable {group condition : NodeId}

theorem patch?_eq_none_of_pluck? {p : Patch} {f : Forest} (h : pluck? condition f = none) :
    patch? condition p f = none := by
  rw [pluck?_eq_map_locate?, Option.map_eq_none_iff] at h
  rw [patch?_eq_map_locate?, h]
  rfl

theorem alter?_group_eq_none {p : Patch} {g : Group}
    (below : delete? group condition g.children = none →
      alter? group (Group.patchIn condition p) g.children = none)
    (h : (Node.group g).delete? group condition = none) (rest : Forest) :
    (Node.group g).alter? group (Group.patchIn condition p) rest = none := by
  obtain ⟨id, kind, children⟩ := g
  simp only [Node.delete?, Node.alter?, Option.map_eq_none_iff] at h ⊢
  split
  · rename_i same
    rw [if_pos same, Option.map_eq_none_iff] at h
    rw [Group.patchIn, patch?_eq_none_of_pluck? h]
    rfl
  · rename_i other
    rw [if_neg other] at h
    rw [below h]
    rfl

theorem alter?_eq_none_of_delete? {p : Patch} {f : Forest}
    (h : delete? group condition f = none) :
    alter? group (Group.patchIn condition p) f = none := by
  induction f using induct with
  | nil => rfl
  | condition c rest ih =>
    rw [delete?_condition, Option.map_eq_none_iff] at h
    rw [alter?_condition, ih h]
    rfl
  | group g rest ihg ih =>
    rw [delete?_cons, Option.or_eq_none_iff, Option.map_eq_none_iff, Option.map_eq_none_iff] at h
    rw [alter?_cons, alter?_group_eq_none ihg h.1, ih h.2]
    rfl

/-- A deletion and the emptying of the same condition go the same way, and along it the texts differ
by the separators that are folded away. -/
theorem Deletes.shortens {f row : Forest} {tidied : List Group}
    (h : Deletes group condition f row tidied) :
    ∃ f', alter? group (Group.patchIn condition .emptied) f = some f' ∧
      (OnlyGroups f → OnlyGroups f') ∧
      ∀ separator, Text.Shortens (∃ t ∈ tidied, t.kind = .or ∧ FoldsShown t.children)
        (text separator row) (text separator f') := by
  induction h with
  | @here g d others rest same found =>
    obtain ⟨before, after, located, _, rfl⟩ := pluck?_eq_some found
    have patched := patch?_eq_map_locate? condition .emptied g.children
    rw [located, Option.map_some] at patched
    refine ⟨.group { g with children := before ++ .condition (d.patch .emptied) :: after } :: rest,
      ?_, by simp, fun separator => ?_⟩
    · rw [alter?_group, if_pos same, Group.patchIn, patched]
      rfl
    · have emptied : text g.kind.separator (before ++ .condition (d.patch .emptied) :: after) =
          text g.kind.separator (before ++ after) := by
        rw [text_append, text_append, text_condition, Condition.encode_emptied,
          Text.glue_empty_left]
      rw [text_append, text_group, emptied]
      refine ((shortens_settle separator g.id g.kind _).glue _ (.refl _)).of_iff ?_
      simp
  | @inside g row rest tidied other _ ih =>
    obtain ⟨f', found, _, texts⟩ := ih
    refine ⟨.group { g with children := f' } :: rest, ?_, by simp, fun separator => ?_⟩
    · rw [alter?_group, if_neg other, found]
      rfl
    · rw [text_append, text_group]
      refine (((shortens_settle separator g.id g.kind row).trans (texts _)).glue _
        (.refl _)).of_iff ?_
      simp only [List.mem_append, List.mem_singleton, or_and_right, exists_or, exists_eq_left,
        or_false]
      exact or_comm
  | @after n f row tidied before _ ih =>
    obtain ⟨f', found, groups, texts⟩ := ih
    refine ⟨n :: f', ?_, fun h => ?_, fun separator => ?_⟩
    · have passed : n.alter? group (Group.patchIn condition .emptied) f = none := by
        cases n with
        | condition c => rfl
        | group g => exact alter?_group_eq_none alter?_eq_none_of_delete? before f
      rw [alter?_cons, passed, found]
      rfl
    · rw [onlyGroups_cons] at h ⊢
      exact ⟨h.1, groups h.2⟩
    · rw [text_cons, text_cons]
      exact ((Text.Shortens.refl n.encode).glue _ (texts separator)).of_iff (by simp)

end Forest

namespace Model

theorem update_eq_alter (m : Model) (group condition : NodeId) (p : Patch) :
    m.update group condition p = m.alter group (Group.patchIn condition p) := rfl

/-- **A deletion means what emptying means, unless alternatives are folded.** The query without the
condition is that with the condition emptied, except if an OR group above the condition is left with
a run of AND groups of which two show something: these become one, and `^` stands where `^OR` was. -/
theorem delete_encode_eq_iff (m : Model) (group condition : NodeId) (fresh : Fresh) :
    (m.delete group condition fresh).model.encode =
        (m.update group condition .emptied).model.encode ↔
      ∀ g ∈ m.tidied group condition, g.kind = .or → ¬ Forest.FoldsShown g.children := by
  have lost : (∀ g ∈ m.tidied group condition, g.kind = .or → ¬ Forest.FoldsShown g.children) ↔
      ¬ ∃ g ∈ m.tidied group condition, g.kind = .or ∧ Forest.FoldsShown g.children := by
    simp only [not_exists, not_and]
  rw [lost]
  rcases m.delete_cases group condition fresh with
    ⟨found, untouched, kept⟩ | ⟨row, path, roots, left⟩
  · have emptied : m.update group condition .emptied = ⟨m, false⟩ := by
      rw [update_eq_alter, alter, Forest.alter?_eq_none_of_delete? found]
      rfl
    rw [kept, emptied, untouched]
    exact iff_of_true rfl (by simp)
  · obtain ⟨f', emptied, groups, texts⟩ := path.shortens
    have deletion : (m.delete group condition fresh).model.encode = Forest.text separator row := by
      rw [left]
      simp only
      split
      · rename_i emptied
        rw [emptied]
        rfl
      · exact encode_ofForest roots
    have emptying : (m.update group condition .emptied).model.encode =
        Forest.text separator f' := by
      rw [update_eq_alter, alter, emptied, ← encode_ofForest (groups m.onlyGroups_forest)]
      rfl
    rw [deletion, emptying]
    exact (texts separator).eq_iff

/-- Two conjunctions as alternatives, with a condition between them. -/
def alternatives : Model :=
  let term (id : String) : Node :=
    .condition { id := ⟨id⟩, field := id, operator := "=", value := "1" }
  ⟨[⟨⟨"root"⟩, .or, [.group ⟨⟨"left"⟩, .and, [term "a"]⟩, term "b",
    .group ⟨⟨"right"⟩, .and, [term "c"]⟩]⟩]⟩

/-- Without the condition between them the two alternatives are one conjunction. -/
theorem delete_encode_alternatives :
    alternatives.Valid ∧ (alternatives.condition? ⟨"root"⟩ ⟨"b"⟩).isSome = true ∧
      (alternatives.delete ⟨"root"⟩ ⟨"b"⟩ ⟨⟨"r"⟩, ⟨"g"⟩, ⟨"k"⟩⟩).model.encode = "a=1^c=1" ∧
      (alternatives.update ⟨"root"⟩ ⟨"b"⟩ .emptied).model.encode = "a=1^ORc=1" := by
  have valid : alternatives.Valid := by constructor <;> decide
  exact ⟨valid, rfl, rfl, rfl⟩

end Model

end FilterTree

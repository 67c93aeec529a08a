import FilterTree.Proofs.Acceptance
import FilterTree.Proofs.Tidying

/-!
# When a deletion keeps the normal form

A model is normal if no OR group has one child and no two AND groups are neighbours among the
children of a group. Merging two AND groups puts the last child of the one beside the first child of
the other, and these are not merged in turn.

* `Model.Normal`: the normal form;
* `Forest.Seamless`: no two neighbours of the row bring two AND groups together if they are merged;
* `normal_mergeAnds_iff`, `normal_settle_iff`: what tidying a row does to the groups below it;
* `delete_normal_iff`: a deletion keeps the normal form exactly if it merges no such neighbours.
-/

namespace FilterTree

/-- The group is no OR group over one child, and no two of its AND children are neighbours. -/
structure Group.Tidy (g : Group) : Prop where
  plural : g.kind = .or → g.children.length ≠ 1
  apart : Forest.Apart g.children

instance (f : Forest) : Decidable f.Apart :=
  inferInstanceAs (Decidable (f.IsChain fun a b => ¬ (a.isAnd = true ∧ b.isAnd = true)))

instance (g : Group) : Decidable g.Tidy :=
  decidable_of_iff ((g.kind = .or → g.children.length ≠ 1) ∧ Forest.Apart g.children)
    ⟨fun ⟨plural, apart⟩ => ⟨plural, apart⟩, fun tidy => ⟨tidy.plural, tidy.apart⟩⟩

namespace Node

def opensAnd (n : Node) : Bool :=
  n.isAnd && n.group?.any fun g => g.children.head?.any isAnd

def closesAnd (n : Node) : Bool :=
  n.isAnd && n.group?.any fun g => g.children.getLast?.any isAnd

end Node

namespace Forest

/-- Every group of the forest, at any depth, is tidy. -/
def Normal (f : Forest) : Prop := ∀ g ∈ groups f, g.Tidy

/-- No AND group that ends in an AND group stands before one that begins with an AND group. -/
def Seamless (f : Forest) : Prop :=
  f.IsChain fun a b => ¬ (a.closesAnd = true ∧ b.opensAnd = true)

instance (f : Forest) : Decidable f.Seamless :=
  inferInstanceAs (Decidable (f.IsChain fun a b => ¬ (a.closesAnd = true ∧ b.opensAnd = true)))

theorem normal_nil : Normal [] := nofun

theorem normal_group (g : Group) (rest : Forest) :
    Normal (.group g :: rest) ↔ g.Tidy ∧ Normal g.children ∧ Normal rest := by
  simp only [Normal, groups_group, List.forall_mem_cons, List.forall_mem_append]

theorem normal_append (f g : Forest) : Normal (f ++ g) ↔ Normal f ∧ Normal g := by
  simp only [Normal, groups_append, List.forall_mem_append]

theorem normal_cons (n : Node) (rest : Forest) : Normal (n :: rest) ↔ Normal [n] ∧ Normal rest :=
  normal_append [n] rest

theorem seamless_cons {n : Node} {f : Forest} :
    Seamless (n :: f) ↔
      (n.closesAnd = true → ∀ b ∈ f.head?, b.opensAnd = false) ∧ Seamless f :=
  isChain_not_and_cons

theorem isAnd_head_mergeAnds (f : Forest) :
    (mergeAnds f).head?.map Node.isAnd = f.head?.map Node.isAnd := by
  induction f using mergeAnds_induct with
  | nil => rfl
  | stay n rest _ _ => rfl
  | fold a b rest after _ _ _ _ => rfl

theorem opensAnd_head_mergeAnds {f : Forest} (full : Full f) :
    (mergeAnds f).head?.map Node.opensAnd = f.head?.map Node.opensAnd := by
  induction f using mergeAnds_induct with
  | nil => rfl
  | stay n rest _ _ => rfl
  | fold a b rest after _ _ _ _ =>
    have inhabited := ((full_group a rest).mp full).1
    simp [Node.opensAnd, Node.group?, Node.isAnd, List.head?_append_of_ne_nil _ inhabited]

theorem tidy_and {g : Group} (and : g.kind = .and) : g.Tidy ↔ Apart g.children := by
  refine ⟨Group.Tidy.apart, fun apart => ⟨fun or => ?_, apart⟩⟩
  cases or.symm.trans and

/-- The children of two AND groups stay apart as one row unless two AND groups meet at the seam. -/
theorem apart_append_and {a b : Group} (ha : a.kind = .and) (hb : b.kind = .and) :
    Apart (a.children ++ b.children) ↔ Apart a.children ∧ Apart b.children ∧
      ((Node.group a).closesAnd = true → (Node.group b).opensAnd = false) := by
  have closes : (Node.group a).closesAnd = true ↔
      ∃ x ∈ a.children.getLast?, x.isAnd = true := by
    simp [Node.closesAnd, Node.group?, isAnd_group.mpr ha, Option.any_eq_true]
  have opens : (Node.group b).opensAnd = false ↔
      ∀ y ∈ b.children.head?, y.isAnd = false := by
    simp [Node.opensAnd, Node.group?, isAnd_group.mpr hb, Option.any_eq_false]
  rw [apart_append, closes, opens]
  apply and_congr_right'
  apply and_congr_right'
  constructor
  · rintro h ⟨x, last, and⟩ y first
    exact Bool.eq_false_iff.mpr fun and' => h x last y first ⟨and, and'⟩
  · rintro h x last y first ⟨and, and'⟩
    rw [h ⟨x, last, and⟩ y first] at and'
    cases and'

/-- Merging a row leaves the groups below it normal if they were and no two are merged at a seam. -/
theorem normal_mergeAnds_iff {f : Forest} (full : Full f) :
    Normal (mergeAnds f) ↔ Normal f ∧ Seamless f := by
  induction f using mergeAnds_induct with
  | nil => exact iff_of_true normal_nil ⟨normal_nil, .nil⟩
  | stay n rest apart ih =>
    have passed : n.closesAnd = true → ∀ b ∈ rest.head?, b.opensAnd = false := by
      intro closes b first
      have and : n.isAnd = true := (Bool.and_eq_true_iff.mp closes).1
      have heads := isAnd_head_mergeAnds rest
      rw [Option.mem_def.mp first, Option.map_some, Option.map_eq_some_iff] at heads
      obtain ⟨b', first', same⟩ := heads
      have other : b.isAnd = false := by rw [← same]; exact apart and b' first'
      simp [Node.opensAnd, other]
    rw [normal_cons, normal_cons n rest, ih ((full_cons n rest).mp full).2, seamless_cons,
      and_assoc]
    simp only [and_iff_right passed]
  | fold a b rest after ha hb merged ih =>
    obtain ⟨_, _, later⟩ := (full_group a rest).mp full
    have inner := ih later
    have seam : (∀ h ∈ rest.head?, h.opensAnd = false) ↔ (Node.group b).opensAnd = false := by
      have heads := opensAnd_head_mergeAnds later
      rw [merged] at heads
      cases rest with
      | nil => cases merged
      | cons h rest =>
        have same : (Node.group b).opensAnd = h.opensAnd := by simpa using heads
        simp [same]
    have folded : Group.Tidy { a with children := a.children ++ b.children } ↔
        Apart (a.children ++ b.children) := tidy_and ha
    rw [normal_group, tidy_and hb] at inner
    rw [normal_group, folded, apart_append_and ha hb, normal_append, normal_group a, tidy_and ha,
      seamless_cons, seam]
    constructor
    · rintro ⟨⟨apart, apart', meet⟩, ⟨below, below'⟩, others⟩
      obtain ⟨normal, seamless⟩ := inner.mp ⟨apart', below', others⟩
      exact ⟨⟨apart, below, normal⟩, meet, seamless⟩
    · rintro ⟨⟨apart, below, normal⟩, meet, seamless⟩
      obtain ⟨apart', below', others⟩ := inner.mpr ⟨normal, seamless⟩
      exact ⟨⟨apart, apart', meet⟩, ⟨below, below'⟩, others⟩

/-- Tidying a group makes it tidy itself, and keeps the groups below it normal if merging does. -/
theorem normal_settle_iff {id : NodeId} {kind : Kind} {row : Forest} (full : Full row) :
    Normal (Group.settle id kind row) ↔ Normal row ∧ Seamless row := by
  rw [← normal_mergeAnds_iff full]
  rcases Group.settle_cases id kind row with ⟨rfl, settled⟩ | ⟨_, kind', settled, lone⟩
  · rw [settled]; rfl
  · have tidy : Group.Tidy ⟨id, kind', mergeAnds row⟩ := by
      refine ⟨fun or => ?_, mergeAnds_apart row⟩
      rcases lone with ⟨_, and⟩ | ⟨many, _⟩
      · cases or.symm.trans and
      · exact many
    rw [settled, normal_group]
    simp only [tidy, normal_nil, true_and, and_true]

/-- Along a deletion in a normal forest, the result is normal as long as no seam is merged. -/
theorem Deletes.normal_iff {group condition : NodeId} {f row : Forest} {tidied : List Group}
    (path : Deletes group condition f row tidied) (full : Full f) (normal : Normal f) :
    Normal row ↔ ∀ t ∈ tidied, Seamless t.children := by
  induction path with
  | @here g d others rest _ found =>
    obtain ⟨before, after, _, children, rfl⟩ := pluck?_eq_some found
    obtain ⟨_, below, later⟩ := (normal_group g rest).mp normal
    obtain ⟨_, full, _⟩ := (full_group g rest).mp full
    rw [children] at below full
    have kept : Full (before ++ after) := by simpa using full
    have normal : Normal (before ++ after) := by
      rw [normal_append] at below ⊢
      exact below
    rw [normal_append, normal_settle_iff kept]
    simp [normal, later]
  | @inside g row rest tidied _ step ih =>
    obtain ⟨_, below, later⟩ := (normal_group g rest).mp normal
    obtain ⟨_, full, _⟩ := (full_group g rest).mp full
    rw [normal_append, normal_settle_iff (step.full full), ih full below, List.forall_mem_append]
    simp [later]
  | @after n f row tidied _ _ ih =>
    obtain ⟨first, later⟩ := (normal_cons n f).mp normal
    rw [normal_cons, ih ((full_cons n f).mp full).2 later]
    exact and_iff_right first

end Forest

namespace Model

def Normal (m : Model) : Prop := ∀ g ∈ m.groups, g.Tidy

instance (m : Model) : Decidable m.Normal := inferInstanceAs (Decidable (∀ g ∈ m.groups, g.Tidy))

theorem normal_ofForest {f : Forest} (h : Forest.OnlyGroups f) :
    (ofForest f).Normal ↔ Forest.Normal f := by
  show Forest.Normal (ofForest f).forest ↔ Forest.Normal f
  rw [forest_ofForest h]

theorem normal_blank (fresh : Fresh) : (blank fresh).Normal := by
  show Forest.Normal [.group ⟨fresh.root, .and, [.group (Group.blank .and fresh none)]⟩]
  have inner : (Group.blank .and fresh none).Tidy := ⟨nofun, .singleton _⟩
  rw [Forest.normal_group, Forest.normal_group]
  exact ⟨⟨nofun, .singleton _⟩, ⟨inner, nofun, nofun⟩, nofun⟩

/-- **A deletion keeps the normal form unless it merges at a seam.** A normal model is normal without
the condition exactly if no group above it is left with two neighbouring AND groups of which the first
ends and the second begins with an AND group: these two are then neighbours and are not merged. -/
theorem delete_normal_iff {m : Model} (valid : m.Valid) (normal : m.Normal)
    (group condition : NodeId) (fresh : Fresh) :
    (m.delete group condition fresh).model.Normal ↔
      ∀ g ∈ m.tidied group condition, Forest.Seamless g.children := by
  rcases m.delete_cases group condition fresh with
    ⟨_, untouched, kept⟩ | ⟨row, path, roots, left⟩
  · rw [kept, untouched]
    exact iff_of_true normal (by simp)
  · rw [← path.normal_iff (valid_iff.mp valid).2.1 normal, left]
    simp only
    split
    · rename_i emptied
      rw [emptied]
      exact iff_of_true (normal_blank fresh) Forest.normal_nil
    · exact normal_ofForest roots

/-- Two AND groups on both sides of a condition, of which the first ends in an AND group and the second
begins with one. -/
def meeting : Model :=
  let term (id : String) : Node :=
    .condition { id := ⟨id⟩, field := id, operator := "=", value := "1" }
  ⟨[⟨⟨"root"⟩, .and,
    [.group ⟨⟨"left"⟩, .and, [term "a", .group ⟨⟨"inner"⟩, .and, [term "b"]⟩]⟩,
      term "c",
      .group ⟨⟨"right"⟩, .and, [.group ⟨⟨"outer"⟩, .and, [term "d"]⟩, term "e"]⟩]⟩]⟩

/-- The groups inside are neighbours when the condition is gone, and stay two groups. -/
theorem delete_normal_iff_meeting :
    meeting.Valid ∧ meeting.Normal ∧ (meeting.condition? ⟨"root"⟩ ⟨"c"⟩).isSome = true ∧
      ¬ (meeting.delete ⟨"root"⟩ ⟨"c"⟩ ⟨⟨"r"⟩, ⟨"g"⟩, ⟨"k"⟩⟩).model.Normal := by
  have valid : meeting.Valid := by constructor <;> decide
  have normal : meeting.Normal := by decide
  refine ⟨valid, normal, by decide, ?_⟩
  rw [delete_normal_iff valid normal]
  decide

end Model

end FilterTree

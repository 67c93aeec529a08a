import FilterTree.Proofs.NormalForm
import FilterTree.Proofs.Placement
import Mathlib.Data.List.Nodup

/-!
# When an insertion keeps the normal form

An insertion does not tidy. A patch and a condition at the end of a group leave the normal form
alone. A new AND group is put right after a group, which may be an AND group; and a condition that
is split off may have kept its group tidy.

* `Forest.seats`, `parent_unique`: a group of a valid model stands in one place;
* `Forest.Reseats`, `Rewrite.top_or_below`: an edit works on the row of roots, or on the children of
  one group, and then only this group and what is below it can cease to be tidy;
* `tidy_replace_iff`: a group with a longer row of children in the place of its last ones;
* `Model.LastAnd`, `Model.Steadies`: where a new AND group meets another, and which conditions keep
  their group tidy;
* `insertion_normal_iff`: exactly these two insertions break the normal form.
-/

namespace FilterTree

namespace Forest

/-- Every node below a group, with the group. -/
def seats (f : Forest) : List (Group × Node) :=
  (groups f).flatMap fun p => p.children.map fun n => (p, n)

theorem mem_seats {f : Forest} {p : Group} {n : Node} :
    (p, n) ∈ seats f ↔ p ∈ groups f ∧ n ∈ p.children := by
  simp [seats]

theorem seats_group (g : Group) (rest : Forest) :
    seats (.group g :: rest) =
      g.children.map (fun n => (g, n)) ++ (seats g.children ++ seats rest) := by
  simp only [seats, groups_group, List.flatMap_cons, List.flatMap_append]

/-- Each node stands in the row itself or below a group, once. -/
theorem seats_perm (f : Forest) :
    (f.map Node.id ++ (seats f).map fun x => x.2.id).Perm (ids f) := by
  induction f using induct with
  | nil => exact .nil
  | condition c rest ih => exact ih.cons c.id
  | group g rest ihg ih =>
    have row : (g.children.map fun n => (g, n)).map (fun x => x.2.id) = g.children.map Node.id := by
      rw [List.map_map]
      rfl
    rw [List.map_cons, ids_group, seats_group, List.map_append, List.map_append, row,
      List.cons_append]
    refine List.Perm.cons g.id (List.Perm.trans ?_ (ihg.append ih))
    rw [List.perm_iff_count]
    intro id
    simp only [List.count_append]
    omega

theorem map_id_sublist (f : Forest) : (f.map Node.id).Sublist (ids f) := by
  induction f using induct with
  | nil => exact .slnil
  | condition c rest ih => exact ih.cons_cons c.id
  | group g rest _ ih => exact (ih.trans (List.sublist_append_right _ _)).cons_cons g.id

/-! ## The row that is replaced -/

/-- The second forest is the first with these children for its group `p`, as far as AND groups and the
normal form go. -/
structure Reseats (f f' : Forest) (p : Group) (children : Forest) : Prop where
  known : p ∈ groups f
  kinds : f'.map Node.isAnd = f.map Node.isAnd
  normal_iff : Normal f →
    (Normal f' ↔ Group.Tidy { p with children := children } ∧ Normal children)

/-- Whether AND groups are neighbours depends on where the AND groups stand, and on nothing else. -/
theorem apart_congr {f f' : Forest} (kinds : f'.map Node.isAnd = f.map Node.isAnd) :
    Apart f' ↔ Apart f := by
  have byKinds (f : Forest) :
      (f.map Node.isAnd).IsChain (fun a b => ¬ (a = true ∧ b = true)) ↔ Apart f :=
    List.isChain_map Node.isAnd
  rw [← byKinds, ← byKinds, kinds]

theorem tidy_congr {g : Group} {children : Forest}
    (kinds : children.map Node.isAnd = g.children.map Node.isAnd) :
    Group.Tidy { g with children := children } ↔ g.Tidy := by
  have length : children.length = g.children.length := by
    simpa using congrArg List.length kinds
  constructor
  · exact fun tidy => ⟨fun or => length ▸ tidy.plural or, (apart_congr kinds).mp tidy.apart⟩
  · exact fun tidy => ⟨fun or => length ▸ tidy.plural or, (apart_congr kinds).mpr tidy.apart⟩

/-- A row is replaced in the row of the forest itself or among the children of one of its groups. -/
theorem Rewrite.top_or_below {change : Forest → Forest → Prop} {f f' : Forest}
    (h : Rewrite change f f') :
    (∃ before row row', f = before ++ row ∧ change row row' ∧ f' = before ++ row') ∨
      ∃ p before row row', p.children = before ++ row ∧ change row row' ∧
        Reseats f f' p (before ++ row') := by
  induction h with
  | here made => exact .inl ⟨[], _, _, rfl, made, rfl⟩
  | @after n f f' _ ih =>
    rcases ih with ⟨before, row, row', rfl, made, rfl⟩ |
      ⟨p, before, row, row', children, made, seat⟩
    · exact .inl ⟨n :: before, row, row', rfl, made, rfl⟩
    · refine .inr ⟨p, before, row, row', children, made, ?_, ?_, ?_⟩
      · exact List.mem_append_right _ seat.known
      · rw [List.map_cons, List.map_cons, seat.kinds]
      · intro normal
        obtain ⟨first, later⟩ := (normal_cons n f).mp normal
        rw [normal_cons, seat.normal_iff later]
        exact and_iff_right first
  | @inside g rest f' _ ih =>
    refine .inr ?_
    rcases ih with ⟨before, row, row', children, made, rfl⟩ |
      ⟨p, before, row, row', children, made, seat⟩
    · refine ⟨g, before, row, row', children, made, List.mem_cons_self, rfl, fun normal => ?_⟩
      have later := ((normal_group g rest).mp normal).2.2
      rw [normal_group]
      simp only [later, and_true]
    · refine ⟨p, before, row, row', children, made, ?_, rfl, fun normal => ?_⟩
      · exact List.mem_cons_of_mem _ (List.mem_append_left _ seat.known)
      · -- the group around stays tidy: its children have their AND groups in the same places
        obtain ⟨tidy, below, later⟩ := (normal_group g rest).mp normal
        rw [normal_group, tidy_congr seat.kinds, seat.normal_iff below]
        simp only [tidy, later, true_and, and_true]

/-- The last children of a tidy group are replaced by a longer row that begins with no AND group
unless they did. The group stays tidy if the row is in order. -/
theorem tidy_replace_iff {p : Group} {before rest row : Forest} {n : Node} (tidy : p.Tidy)
    (children : p.children = before ++ n :: rest) (longer : rest.length < row.length)
    (head : ∀ x ∈ row.head?, x.isAnd = true → n.isAnd = true) :
    Group.Tidy { p with children := before ++ row } ↔ Apart row := by
  obtain ⟨plural, apart⟩ := tidy
  rw [children] at plural apart
  obtain ⟨first, _, seam⟩ := apart_append.mp apart
  constructor
  · exact fun tidy => (apart_append.mp tidy.apart).2.1
  · intro inner
    refine ⟨fun or => ?_, apart_append.mpr ⟨first, inner, ?_⟩⟩
    · have := plural or
      simp only [List.length_append, List.length_cons] at this ⊢
      omega
    · rintro a last b start ⟨aAnd, bAnd⟩
      exact seam a last n rfl ⟨aAnd, head b start bAnd⟩

/-! ## What is made of the row -/

section
variable {fresh : Fresh} {g : Group} {rest : Forest}

/-- A condition at the end leaves a tidy group tidy. -/
theorem tidy_append (tidy : g.Tidy) (inhabited : g.children ≠ []) (c : Condition) :
    (Group.append g c).Tidy := by
  obtain ⟨plural, apart⟩ := tidy
  have positive := List.length_pos_of_ne_nil inhabited
  refine ⟨fun _ => ?_, apart_append.mpr ⟨apart, .singleton _, ?_⟩⟩
  · simp only [Group.append, List.length_append, List.length_cons, List.length_nil]
    omega
  · rintro a _ b first ⟨_, and⟩
    obtain rfl := Option.some_inj.mp first
    cases and

theorem normal_append_condition (normal : Normal (.group g :: rest)) (inhabited : g.children ≠ [])
    (c : Condition) : Normal (.group (Group.append g c) :: rest) := by
  obtain ⟨tidy, below, later⟩ := (normal_group g rest).mp normal
  rw [normal_group]
  exact ⟨tidy_append tidy inhabited c, (normal_append _ _).mpr ⟨below, nofun⟩, later⟩

theorem tidy_blank_and (fresh : Fresh) : (Group.blank .and fresh none).Tidy :=
  ⟨nofun, .singleton _⟩

theorem tidy_blank_or (fresh : Fresh) (c : Condition) :
    (Group.blank .or fresh (some (.condition c))).Tidy := by
  have plural : (Group.blank .or fresh (some (.condition c))).children.length ≠ 1 := by
    simp [Group.blank]
  exact ⟨fun _ => plural, apart_cons.mpr ⟨fun and => absurd and Bool.false_ne_true, .singleton _⟩⟩

/-- Below a row that grows after its first group every group stays tidy. -/
theorem normal_growAfter (full : Full rest) (normal : Normal (.group g :: rest)) :
    Normal (g.growAfter fresh rest) := by
  rw [normal_cons] at normal
  obtain ⟨first, later⟩ := normal
  rcases growAfter_cases fresh g rest with ⟨before, a, after, rfl, _, _, grown⟩ | ⟨_, grown⟩
  · rw [normal_append] at later
    rw [full_append, full_group] at full
    rw [grown, normal_cons, normal_append]
    exact ⟨first, later.1, normal_append_condition later.2 full.2.1 _⟩
  · rw [grown, normal_cons]
    exact ⟨first, (normal_group _ rest).mpr ⟨tidy_blank_and fresh, nofun, later⟩⟩

/-- In a row that grows after its first group two AND groups become neighbours if that group is an
AND group and no other follows. -/
theorem apart_growAfter (apart : Apart (.group g :: rest)) :
    Apart (g.growAfter fresh rest) ↔ (g.kind = .and → ∃ n ∈ rest, n.isAnd = true) := by
  rcases growAfter_cases fresh g rest with ⟨before, a, after, rfl, and, _, grown⟩ | ⟨lacking, grown⟩
  · refine iff_of_true ?_ fun _ => ⟨.group a, by simp, isAnd_group.mpr and⟩
    rw [grown]
    refine (apart_congr ?_).mpr apart
    simp [Node.isAnd, Group.append]
  · have lone : ¬ ∃ n ∈ rest, n.isAnd = true := by
      rintro ⟨n, mem, and⟩
      rw [lacking n mem] at and
      cases and
    have between : Apart (.group (Group.blank .and fresh none) :: rest) :=
      apart_cons.mpr
        ⟨fun _ n first => lacking n (List.mem_of_mem_head? first), (apart_cons.mp apart).2⟩
    rw [grown, apart_cons]
    constructor
    · rintro ⟨head, _⟩ and
      cases head (isAnd_group.mpr and) _ rfl
    · intro needs
      exact ⟨fun and => absurd (needs (isAnd_group.mp and)) lone, between⟩

theorem length_growAfter_gt (fresh : Fresh) (g : Group) (rest : Forest) :
    rest.length < (g.growAfter fresh rest).length := by
  rcases growAfter_cases fresh g rest with ⟨before, a, after, rfl, _, _, grown⟩ | ⟨_, grown⟩ <;>
    simp only [grown, List.length_cons, List.length_append] <;> omega

/-- What a split makes of the group `g`, which has these other children, and the siblings after. -/
def splitRow (fresh : Fresh) (g : Group) (c : Condition) (others rest : Forest) : Forest :=
  let lifted := Node.group (Group.blank .or fresh (some (.condition c)))
  if others = [] then lifted :: rest else .group { g with children := others } :: lifted :: rest

/-- Below a row with a condition split off every group stays tidy if the group without it does. -/
theorem normal_splitRow_iff {c : Condition} {before after : Forest}
    (children : g.children = before ++ .condition c :: after) (normal : Normal (.group g :: rest)) :
    Normal (splitRow fresh g c (before ++ after) rest) ↔
      Group.Tidy { g with children := before ++ after } := by
  obtain ⟨_, below, later⟩ := (normal_group g rest).mp normal
  rw [children, normal_append] at below
  have others : Normal (before ++ after) := (normal_append before after).mpr below
  have lifted : Normal (.group (Group.blank .or fresh (some (.condition c))) :: rest) :=
    (normal_group _ rest).mpr ⟨tidy_blank_or fresh c, nofun, later⟩
  unfold splitRow
  split
  · rename_i emptied
    rw [emptied]
    exact iff_of_true lifted ⟨fun _ => by simp, .nil⟩
  · rw [normal_group]
    simp only [others, lifted, and_true]

/-- An OR group beside a group does not bring two AND groups together. -/
theorem apart_splitRow {c : Condition} {others : Forest} (apart : Apart (.group g :: rest)) :
    Apart (splitRow fresh g c others rest) := by
  have lifted : Apart (.group (Group.blank .or fresh (some (.condition c))) :: rest) :=
    apart_cons.mpr ⟨nofun, (apart_cons.mp apart).2⟩
  unfold splitRow
  split
  · exact lifted
  · refine apart_cons.mpr ⟨fun _ n first => ?_, lifted⟩
    obtain rfl := Option.some_inj.mp first
    rfl

/-- The group around a group from which a condition is split off stays tidy. -/
theorem tidy_splitRow {p : Group} {front others : Forest} (tidy : p.Tidy)
    (children : p.children = front ++ .group g :: rest) (c : Condition) :
    Group.Tidy { p with children := front ++ splitRow fresh g c others rest } := by
  have apart := tidy.apart
  rw [children] at apart
  refine (tidy_replace_iff tidy children ?_ ?_).mpr (apart_splitRow (apart_append.mp apart).2.1)
  · unfold splitRow
    split
    · exact Nat.lt_succ_self _
    · exact Nat.lt_succ_of_lt (Nat.lt_succ_self _)
  · unfold splitRow
    split
    · rintro _ ⟨⟩ and
      cases and
    · rintro _ ⟨⟩ and
      exact and

end

end Forest

namespace Model

variable {m k : Model} {g : Group} {c : Condition}

/-! ## Where a group stands -/

theorem nodup_children (valid : m.Valid) (known : g ∈ m.groups) : g.children.Nodup :=
  ((Forest.map_id_sublist g.children).nodup
    (valid.nodup_ids.sublist (Forest.ids_children_sublist known))).of_map

/-- A group of a valid model is below one other at most, and there in one place. -/
theorem parent_unique (valid : m.Valid) {p p' g' : Group} {before before' after after' : Forest}
    (known : p ∈ m.groups) (known' : p' ∈ m.groups)
    (children : p.children = before ++ .group g :: after)
    (children' : p'.children = before' ++ .group g' :: after') (same : g.id = g'.id) :
    p = p' ∧ g = g' ∧ before = before' ∧ after = after' := by
  have nodup := (Forest.seats_perm m.forest).nodup_iff.mpr valid.nodup_ids
  have seat : (p, Node.group g) ∈ Forest.seats m.forest :=
    Forest.mem_seats.mpr ⟨known, by simp [children]⟩
  have seat' : (p', Node.group g') ∈ Forest.seats m.forest :=
    Forest.mem_seats.mpr ⟨known', by simp [children']⟩
  have one := List.inj_on_of_nodup_map (List.nodup_append.mp nodup).2.1 seat seat' same
  cases one
  have row := nodup_children valid known
  rw [children] at row children'
  obtain ⟨first, later⟩ : .group g ∉ before ∧ .group g ∉ after := by
    simpa [not_or] using (List.nodup_middle.mp row).notMem
  obtain ⟨rfl, _, rfl⟩ := (List.append_cons_inj_of_notMem first later).mp children'
  exact ⟨rfl, rfl, rfl, rfl⟩

/-- A root of a valid model is below no group. -/
theorem not_below_of_root (valid : m.Valid) {before rest : Forest}
    (roots : m.forest = before ++ .group g :: rest) {p g' : Group} (known : p ∈ m.groups)
    (held : .group g' ∈ p.children) : g'.id ≠ g.id := by
  have nodup := (Forest.seats_perm m.forest).nodup_iff.mpr valid.nodup_ids
  have seat : (p, Node.group g') ∈ Forest.seats m.forest := Forest.mem_seats.mpr ⟨known, held⟩
  have top : g.id ∈ m.forest.map Node.id :=
    List.mem_map.mpr ⟨.group g, by rw [roots]; simp, rfl⟩
  exact fun same => (List.nodup_append.mp nodup).2.2 _ top _ (List.mem_map_of_mem seat) same.symm

/-! ## The edits -/

/-- With another row in the place of one that opens with a group, a normal model stays normal if
that row is normal and, should it stand below a group, leaves that group tidy. -/
theorem Replaces.normal_cases (valid : m.Valid) (normal : m.Normal) {make : Forest → Forest}
    (path : m.Replaces g make k) :
    ∃ before rest, Forest.Full rest ∧ Forest.Normal (.group g :: rest) ∧
      ((m.forest = before ++ .group g :: rest ∧ (k.Normal ↔ Forest.Normal (make rest))) ∨
        ∃ p ∈ m.groups, p.children = before ++ .group g :: rest ∧
          (k.Normal ↔
            Group.Tidy { p with children := before ++ make rest } ∧
              Forest.Normal (make rest))) := by
  have full : Forest.Full m.forest := (valid_iff.mp valid).2.1
  have whole : Forest.Normal m.forest := normal
  rcases path.top_or_below with
    ⟨before, _, _, roots, ⟨rest, rfl, rfl⟩, made⟩ |
    ⟨p, before, _, _, children, ⟨rest, rfl, rfl⟩, seat⟩
  · rw [roots, Forest.full_append, Forest.full_group] at full
    rw [roots, Forest.normal_append] at whole
    refine ⟨before, rest, full.2.2.2, whole.2, .inl ⟨roots, ?_⟩⟩
    show Forest.Normal k.forest ↔ _
    rw [made, Forest.normal_append]
    exact and_iff_right whole.1
  · have inside := (Forest.groups_children_sublist seat.known).subset
    have full : Forest.Full p.children := fun h mem => full h (inside mem)
    have below : Forest.Normal p.children := fun h mem => normal h (inside mem)
    rw [children, Forest.full_append, Forest.full_group] at full
    rw [children, Forest.normal_append] at below
    refine ⟨before, rest, full.2.2.2, below.2, .inr ⟨p, seat.known, children, ?_⟩⟩
    show Forest.Normal k.forest ↔ _
    rw [seat.normal_iff whole, Forest.normal_append]
    simp only [below.1, true_and]

/-- A row that is put in the place of one alike in its AND groups leaves a normal model normal if it
is normal itself. -/
theorem Replaces.normal (valid : m.Valid) (normal : m.Normal) {make : Forest → Forest}
    (path : m.Replaces g make k)
    (kinds : ∀ rest, (make rest).map Node.isAnd = (Node.group g :: rest).map Node.isAnd)
    (keeps : ∀ rest, Forest.Normal (.group g :: rest) → Forest.Normal (make rest)) : k.Normal := by
  obtain ⟨before, rest, _, row, ⟨_, iff⟩ | ⟨p, known, children, iff⟩⟩ :=
    path.normal_cases valid normal
  · exact iff.mpr (keeps rest row)
  · refine iff.mpr ⟨(Forest.tidy_congr ?_).mpr (normal p known), keeps rest row⟩
    rw [children, List.map_append, List.map_append, kinds]

theorem normal_update (valid : m.Valid) (normal : m.Normal) (group condition : NodeId) (p : Patch) :
    (m.update group condition p).model.Normal := by
  cases found : m.condition? group condition with
  | none =>
    have answers := (changed_iff_found valid group condition p ⟨group, group, group⟩).1
    rwa [answers.unchanged (by rw [found]; rfl)]
  | some c =>
    obtain ⟨g, known, held, rfl, rfl⟩ := held_of_condition? found
    obtain ⟨k, updated, before, after, children, path⟩ := patched_update valid known held p
    rw [updated]
    refine path.normal valid normal (fun _ => rfl) fun rest row => ?_
    obtain ⟨tidy, below, later⟩ := (Forest.normal_group g rest).mp row
    rw [children, Forest.normal_append] at below
    refine (Forest.normal_group _ rest).mpr ⟨?_, (Forest.normal_append _ _).mpr below, later⟩
    refine (Forest.tidy_congr ?_).mpr tidy
    rw [children, List.map_append, List.map_append]
    rfl

theorem normal_add (valid : m.Valid) (normal : m.Normal) (group : NodeId) (fresh : Fresh) :
    (m.add group fresh).model.Normal := by
  cases found : m.group? group with
  | none =>
    obtain ⟨_, _, _, answers, _⟩ := changed_iff_found valid group group {} fresh
    rwa [answers.unchanged (by rw [found]; rfl)]
  | some g =>
    obtain ⟨known, rfl⟩ := known_of_group? found
    obtain ⟨k, added, path⟩ := replaces_add valid known fresh
    rw [added]
    refine path.normal valid normal (fun _ => rfl) fun rest row => ?_
    exact Forest.normal_append_condition row (valid.children_ne_nil g known) _

/-- The group is an AND group in another one, and no AND group follows it there. -/
def LastAnd (m : Model) (group : NodeId) : Prop :=
  ∃ p ∈ m.groups, ∃ before g after, p.children = before ++ .group g :: after ∧ g.id = group ∧
    g.kind = .and ∧ ∀ n ∈ after, n.isAnd = false

/-- A new AND condition beside a group breaks the normal form if the group is the last of the AND
groups in its parent: the new AND group is its neighbour. -/
theorem normal_addAfter_iff (valid : m.Valid) (normal : m.Normal) (group : NodeId) (fresh : Fresh) :
    (m.addAfter group fresh).model.Normal ↔ ¬ m.LastAnd group := by
  cases found : m.group? group with
  | none =>
    obtain ⟨_, _, _, _, answers⟩ := changed_iff_found valid group group {} fresh
    rw [answers.unchanged (by rw [found]; rfl)]
    refine iff_of_true normal ?_
    rintro ⟨p, known, before, g, after, children, rfl, _⟩
    have below : g ∈ Forest.groups p.children := Forest.mem_groups_of_mem (by simp [children])
    rw [group?_of_mem valid ((Forest.groups_children_sublist known).subset below)] at found
    cases found
  | some g =>
    obtain ⟨known, rfl⟩ := known_of_group? found
    obtain ⟨k, added, path⟩ := replaces_addAfter valid known fresh
    rw [added]
    obtain ⟨before, rest, full, row, ⟨roots, iff⟩ | ⟨p, parent, children, iff⟩⟩ :=
      path.normal_cases valid normal
    · refine iff_of_true (iff.mpr (Forest.normal_growAfter full row)) ?_
      rintro ⟨p, parent, _, g', _, children, same, _⟩
      exact not_below_of_root valid roots parent (by simp [children]) same
    · have apart := (normal p parent).apart
      rw [children] at apart
      -- below a group all depends on whether the new AND group meets the one it is put beside
      have grown : k.Normal ↔ (g.kind = .and → ∃ n ∈ rest, n.isAnd = true) := by
        rw [iff, Forest.tidy_replace_iff (normal p parent) children
          (Forest.length_growAfter_gt fresh g rest) fun x first => ?_,
          Forest.apart_growAfter (Forest.apart_append.mp apart).2.1]
        · exact and_iff_left (Forest.normal_growAfter full row)
        · obtain rfl := Option.some_inj.mp first
          exact id
      show k.Normal ↔ _
      rw [grown]
      constructor
      · rintro needs ⟨p', parent', _, g', after, children', same, and, lacking⟩
        obtain ⟨rfl, rfl, rfl, rfl⟩ :=
          parent_unique valid parent parent' children children' same.symm
        obtain ⟨n, mem, is⟩ := needs and
        rw [lacking n mem] at is
        cases is
      · intro later and
        refine Classical.byContradiction fun alone => later
          ⟨p, parent, before, g, rest, children, rfl, and, fun n mem => ?_⟩
        exact Bool.eq_false_iff.mpr fun is => alone ⟨n, mem, is⟩

/-- The group is an OR group of two children, the condition being one, or the condition stands
between two AND groups. -/
def Steadies (m : Model) (group condition : NodeId) : Prop :=
  ∃ g ∈ m.groups, ∃ before c after, g.children = before ++ .condition c :: after ∧ g.id = group ∧
    c.id = condition ∧
    ((g.kind = .or ∧ g.children.length = 2) ∨
      ∃ a ∈ before.getLast?, ∃ b ∈ after.head?, a.isAnd = true ∧ b.isAnd = true)

theorem tidy_without_iff {before after : Forest} (tidy : g.Tidy)
    (children : g.children = before ++ .condition c :: after) :
    Group.Tidy { g with children := before ++ after } ↔
      ¬ ((g.kind = .or ∧ g.children.length = 2) ∨
        ∃ a ∈ before.getLast?, ∃ b ∈ after.head?, a.isAnd = true ∧ b.isAnd = true) := by
  have apart := tidy.apart
  rw [children, Forest.apart_append, Forest.apart_cons] at apart
  obtain ⟨first, ⟨_, later⟩, _⟩ := apart
  have one : (before ++ after).length = 1 ↔ g.children.length = 2 := by
    simp only [children, List.length_append, List.length_cons]
    omega
  rw [not_or]
  constructor
  · rintro ⟨plural, apart⟩
    refine ⟨fun ⟨or, two⟩ => plural or (one.mpr two), ?_⟩
    rintro ⟨a, last, b, head, and⟩
    exact (Forest.apart_append.mp apart).2.2 a last b head and
  · rintro ⟨many, seam⟩
    refine ⟨fun or lone => many ⟨or, one.mp lone⟩, Forest.apart_append.mpr ⟨first, later, ?_⟩⟩
    exact fun a last b head and => seam ⟨a, last, b, head, and⟩

/-- Splitting a condition off breaks the normal form if it kept its group tidy. -/
theorem normal_split_iff (valid : m.Valid) (normal : m.Normal) (group condition : NodeId)
    (fresh : Fresh) :
    (m.split group condition fresh).model.Normal ↔ ¬ m.Steadies group condition := by
  cases found : m.condition? group condition with
  | none =>
    obtain ⟨_, answers, _⟩ := changed_iff_found valid group condition {} fresh
    rw [answers.unchanged (by rw [found]; rfl)]
    refine iff_of_true normal ?_
    rintro ⟨g, known, before, c, after, children, rfl, rfl, _⟩
    rw [condition?_of_mem valid known (by simp [children])] at found
    cases found
  | some c =>
    obtain ⟨g, known, held, rfl, rfl⟩ := held_of_condition? found
    obtain ⟨k, split, before, after, children, path⟩ := splitOff_split valid known held fresh
    have path : m.Replaces g (Forest.splitRow fresh g c (before ++ after)) k := path
    rw [split]
    have left : k.Normal ↔ Group.Tidy { g with children := before ++ after } := by
      obtain ⟨front, rest, _, row, ⟨_, iff⟩ | ⟨p, parent, within, iff⟩⟩ :=
        path.normal_cases valid normal
      · rw [iff, Forest.normal_splitRow_iff children row]
      · rw [iff, Forest.normal_splitRow_iff children row]
        exact and_iff_right (Forest.tidy_splitRow (normal p parent) within c)
    show k.Normal ↔ _
    rw [left, tidy_without_iff (normal g known) children]
    apply not_congr
    constructor
    · exact fun needed => ⟨g, known, before, c, after, children, rfl, rfl, needed⟩
    · rintro ⟨g', known', before', c', after', children', sameGroup, same, needed⟩
      have one := group?_of_mem valid known'
      rw [sameGroup, group?_of_mem valid known] at one
      obtain rfl := Option.some_inj.mp one
      -- the condition is located in one place, so both ways to split the row agree
      have nodup := valid.nodup_ids.sublist (Forest.ids_children_sublist known)
      have place := Forest.locate?_append (children ▸ nodup)
      rw [← children, children', ← same, Forest.locate?_append (children' ▸ nodup)] at place
      cases place
      exact needed

/-- **Patches and additions keep the normal form, and two insertions may break it.** A normal model
is normal after a condition is patched or added at the end of a group. It is normal after an AND
condition is added beside a group exactly if the group is not the last AND group of its parent, and
after a condition is split off exactly if the condition was not what kept its group tidy. -/
theorem insertion_normal_iff (valid : m.Valid) (normal : m.Normal) (group condition : NodeId)
    (p : Patch) (fresh : Fresh) :
    (m.update group condition p).model.Normal ∧ (m.add group fresh).model.Normal ∧
      ((m.addAfter group fresh).model.Normal ↔ ¬ m.LastAnd group) ∧
      ((m.split group condition fresh).model.Normal ↔ ¬ m.Steadies group condition) :=
  ⟨normal_update valid normal group condition p, normal_add valid normal group fresh,
    normal_addAfter_iff valid normal group fresh,
    normal_split_iff valid normal group condition fresh⟩

/-- An AND group with no AND group after it, an OR group, one of two alternatives and a condition
that stands last. -/
theorem insertion_normal_iff_branching :
    let fresh : Fresh := ⟨⟨"r"⟩, ⟨"g"⟩, ⟨"k"⟩⟩
    branching.Valid ∧ branching.Normal ∧
      ¬ (branching.addAfter ⟨"three"⟩ fresh).model.Normal ∧ ¬ branching.LastAnd ⟨"two"⟩ ∧
      ¬ (branching.split ⟨"two"⟩ ⟨"c"⟩ fresh).model.Normal ∧
      ¬ branching.Steadies ⟨"one"⟩ ⟨"d"⟩ := by
  intro fresh
  have valid : branching.Valid := by constructor <;> decide
  have normal : branching.Normal := by decide
  have lastAnd : branching.LastAnd ⟨"three"⟩ :=
    ⟨branching.groups[1], List.getElem_mem _, [], branching.groups[2], _, rfl, rfl, rfl, by decide⟩
  have steadies : branching.Steadies ⟨"two"⟩ ⟨"c"⟩ :=
    ⟨branching.groups[1], List.getElem_mem _, [.group branching.groups[2]], branching.leaves[2], [],
      rfl, rfl, rfl, .inl (by decide)⟩
  obtain ⟨_, _, inner, _⟩ := insertion_normal_iff valid normal ⟨"three"⟩ ⟨"a"⟩ {} fresh
  obtain ⟨_, _, outer, alternative⟩ := insertion_normal_iff valid normal ⟨"two"⟩ ⟨"c"⟩ {} fresh
  obtain ⟨_, _, _, last⟩ := insertion_normal_iff valid normal ⟨"one"⟩ ⟨"d"⟩ {} fresh
  exact ⟨valid, normal, fun kept => inner.mp kept lastAnd, outer.mp (by decide),
    fun kept => alternative.mp kept steadies, last.mp (by decide)⟩

/-- The only group of a blank model gets a neighbour of its own kind, and of two alternatives one is
left behind. -/
theorem insertion_breaks_normal :
    let fresh : Fresh := ⟨⟨"r"⟩, ⟨"g"⟩, ⟨"k"⟩⟩
    let m := blank ⟨⟨"x"⟩, ⟨"y"⟩, ⟨"z"⟩⟩
    m.Accepted ∧ m.Normal ∧ ¬ (m.addAfter ⟨"y"⟩ fresh).model.Normal ∧
      branching.Accepted ∧ branching.Normal ∧
      ¬ (branching.split ⟨"two"⟩ ⟨"c"⟩ fresh).model.Normal := by
  exact ⟨rfl, by decide, by decide, rfl, by decide, by decide⟩

end Model

end FilterTree

import FilterTree.Edit.Conditions
import FilterTree.Proofs.Row

/-!
# Where an edit takes hold

An edit replaces one row, the one that opens with its target, and copies what is above and before.

* `Forest.Rewrite`: one row somewhere in the forest replaced by a related one;
* `exists_rewrite_of_alter?`: every edit by `Forest.alter?` is such a replacement, at a group with the
  identifier that was sought;
* `rewrite_of_alterRow?`, `rewrite_of_alterBelow?`: so is every edit by way of the row beside a group;
* `Forest.locate?`: the first condition of a row with a given name and what stands around it;
* `pluck?_eq_some`, `patch?_eq_some`, `appendToAnd?_eq_some`, `appendToAnd?_eq_none`,
  `growAfter_cases`: what happens in the row itself.
-/

namespace FilterTree.Forest

/-- The second forest is the first with a row that starts anywhere in it, at any depth, replaced by
a row that `change` relates to it. -/
inductive Rewrite (change : Forest → Forest → Prop) : Forest → Forest → Prop where
  | here {f f' : Forest} : change f f' → Rewrite change f f'
  | after (n : Node) {f f' : Forest} : Rewrite change f f' → Rewrite change (n :: f) (n :: f')
  | inside (g : Group) (rest : Forest) {f' : Forest} : Rewrite change g.children f' →
      Rewrite change (.group g :: rest) (.group { g with children := f' } :: rest)

theorem alter?_cons {target : NodeId} {change : Group → Forest → Option Forest} (n : Node)
    (rest : Forest) :
    alter? target change (n :: rest) =
      (n.alter? target change rest).or ((alter? target change rest).map (n :: ·)) := by
  rw [← Option.orElse_eq_or (f := fun _ => (alter? target change rest).map (n :: ·))]
  rfl

theorem Rewrite.mono {change change' : Forest → Forest → Prop} {f f' : Forest}
    (h : Rewrite change f f') (weaker : ∀ row row', change row row' → change' row row') :
    Rewrite change' f f' := by
  induction h with
  | here made => exact .here (weaker _ _ made)
  | after n _ ih => exact .after n ih
  | inside g rest _ ih => exact .inside g rest ih

theorem Rewrite.append_left {change : Forest → Forest → Prop} (before : Forest) {f f' : Forest}
    (h : Rewrite change f f') : Rewrite change (before ++ f) (before ++ f') := by
  induction before with
  | nil => exact h
  | cons n rest ih => exact .after n ih

/-- If a row is replaced by replacing a row somewhere in it, one row is replaced in all. -/
theorem Rewrite.flatten {change : Forest → Forest → Prop} {f f' : Forest}
    (h : Rewrite (Rewrite change) f f') : Rewrite change f f' := by
  induction h with
  | here made => exact made
  | after n _ ih => exact .after n ih
  | inside g rest _ ih => exact .inside g rest ih

/-- An edit takes hold at a group of the forest that has the identifier. -/
theorem exists_rewrite_of_alter? {target : NodeId} {change : Group → Forest → Option Forest}
    {f f' : Forest} (h : alter? target change f = some f') :
    ∃ g ∈ groups f, g.id = target ∧
      Rewrite (fun row row' => ∃ rest, row = .group g :: rest ∧ change g rest = some row') f f' := by
  induction f using induct generalizing f' with
  | nil => cases h
  | condition c rest ih =>
    obtain ⟨row, found, rfl⟩ := Option.map_eq_some_iff.mp h
    obtain ⟨g, mem, same, made⟩ := ih found
    exact ⟨g, mem, same, .after _ made⟩
  | group g rest ihg ih =>
    rw [alter?_group, Option.orElse_eq_orElse, Option.orElse_eq_or, Option.or_eq_some_iff] at h
    rcases h with within | ⟨_, later⟩
    · split at within
      · rename_i same
        exact ⟨g, List.mem_cons_self, same, .here ⟨rest, rfl, within⟩⟩
      · obtain ⟨row, found, rfl⟩ := Option.map_eq_some_iff.mp within
        obtain ⟨k, mem, same, made⟩ := ihg found
        exact ⟨k, List.mem_cons_of_mem _ (List.mem_append_left _ mem), same, .inside g rest made⟩
    · obtain ⟨row, found, rfl⟩ := Option.map_eq_some_iff.mp later
      obtain ⟨k, mem, same, made⟩ := ih found
      exact ⟨k, List.mem_cons_of_mem _ (List.mem_append_right _ mem), same, .after _ made⟩

section
variable {target : NodeId} {change : Group → Forest → Option Forest}

theorem rewrite_of_alterRow? {f f' : Forest} (h : alterRow? target change f = some f') :
    Rewrite (fun row row' => ∃ g rest, row = .group g :: rest ∧ change g rest = some row') f f' := by
  induction f generalizing f' with
  | nil => cases h
  | cons n rest ih =>
    -- a node that is passed over stands before the group
    have pass (h : (alterRow? target change rest).map (n :: ·) = some f') :
        Rewrite (fun row row' => ∃ g rest, row = .group g :: rest ∧ change g rest = some row')
          (n :: rest) f' := by
      obtain ⟨row, found, rfl⟩ := Option.map_eq_some_iff.mp h
      exact .after n (ih found)
    cases n with
    | condition c => exact pass h
    | group g =>
      unfold alterRow? at h
      split at h
      · exact .here ⟨g, rest, rfl, h⟩
      · exact pass h

/-- An edit by way of the row beside a group replaces a row that opens with a group, too. -/
theorem rewrite_of_alterBelow? {f f' : Forest} (h : alterBelow? target change f = some f') :
    Rewrite (fun row row' => ∃ g rest, row = .group g :: rest ∧ change g rest = some row') f f' := by
  induction f using induct generalizing f' with
  | nil => cases h
  | condition c rest ih =>
    obtain ⟨row, found, rfl⟩ := Option.map_eq_some_iff.mp h
    exact .after _ (ih found)
  | group g rest ihg ih =>
    rw [alterBelow?_group, Option.orElse_eq_orElse, Option.orElse_eq_or, Option.or_eq_some_iff,
      Option.map_map, Option.map_eq_some_iff] at h
    rcases h with ⟨row, within, rfl⟩ | ⟨_, later⟩
    · apply Rewrite.inside
      split at within
      · exact rewrite_of_alterRow? within
      · exact ihg within
    · obtain ⟨row, found, rfl⟩ := Option.map_eq_some_iff.mp later
      exact .after _ (ih found)

end

/-- No condition of the row itself has the identifier. -/
def Lacks (c : NodeId) (f : Forest) : Prop := ∀ d, .condition d ∈ f → d.id ≠ c

theorem lacks_cons {c : NodeId} {n : Node} {f : Forest} :
    Lacks c (n :: f) ↔ (∀ d, n = .condition d → d.id ≠ c) ∧ Lacks c f := by
  simp only [Lacks, List.mem_cons, or_imp, forall_and, eq_comm]

/-- The first condition of the row named `c`, between the nodes before and after it. -/
def locate? (c : NodeId) : Forest → Option (Forest × Condition × Forest)
  | [] => none
  | .condition d :: rest =>
    if d.id = c then some ([], d, rest)
    else (locate? c rest).map fun (before, found) => (.condition d :: before, found)
  | .group g :: rest => (locate? c rest).map fun (before, found) => (.group g :: before, found)

theorem locate?_eq_some_iff {c : NodeId} {f before after : Forest} {d : Condition} :
    locate? c f = some (before, d, after) ↔
      f = before ++ .condition d :: after ∧ d.id = c ∧ Lacks c before := by
  constructor
  · intro h
    induction f generalizing before with
    | nil => cases h
    | cons n rest ih =>
      -- a node that is passed over stands before the condition
      have pass (other : ∀ e, n = .condition e → e.id ≠ c)
          (h : (locate? c rest).map (fun (before, found) => (n :: before, found)) =
            some (before, d, after)) :
          n :: rest = before ++ .condition d :: after ∧ d.id = c ∧ Lacks c before := by
        obtain ⟨⟨front, _, _⟩, found, eq⟩ := Option.map_eq_some_iff.mp h
        cases eq
        obtain ⟨rfl, same, lacks⟩ := ih found
        exact ⟨rfl, same, lacks_cons.mpr ⟨other, lacks⟩⟩
      cases n with
      | group g => exact pass nofun h
      | condition e =>
        unfold locate? at h
        split at h
        · rename_i same
          cases h
          exact ⟨rfl, same, nofun⟩
        · rename_i other
          exact pass (by rintro _ ⟨⟩; exact other) h
  · rintro ⟨rfl, same, lacks⟩
    induction before with
    | nil => simp [locate?, same]
    | cons n before ih =>
      obtain ⟨other, free⟩ := lacks_cons.mp lacks
      cases n with
      | group g => simp [locate?, ih free]
      | condition e => simp [locate?, other e rfl, ih free]

theorem pluck?_eq_map_locate? (c : NodeId) (f : Forest) :
    pluck? c f = (locate? c f).map fun (before, d, after) => (d, before ++ after) := by
  induction f with
  | nil => rfl
  | cons n rest ih =>
    cases n with
    | group g => simp [pluck?, locate?, ih, Function.comp_def]
    | condition d => by_cases h : d.id = c <;> simp [pluck?, locate?, h, ih, Function.comp_def]

theorem patch?_eq_map_locate? (c : NodeId) (p : Patch) (f : Forest) :
    patch? c p f =
      (locate? c f).map fun (before, d, after) => before ++ .condition (d.patch p) :: after := by
  induction f with
  | nil => rfl
  | cons n rest ih =>
    cases n with
    | group g => simp [patch?, locate?, ih, Function.comp_def]
    | condition d => by_cases h : d.id = c <;> simp [patch?, locate?, h, ih, Function.comp_def]

/-- The plucked condition and the others are the parts of the row. -/
theorem pluck?_eq_some {c : NodeId} {f others : Forest} {d : Condition}
    (h : pluck? c f = some (d, others)) :
    ∃ before after, locate? c f = some (before, d, after) ∧
      f = before ++ .condition d :: after ∧ others = before ++ after := by
  rw [pluck?_eq_map_locate?] at h
  obtain ⟨⟨before, _, after⟩, found, eq⟩ := Option.map_eq_some_iff.mp h
  cases eq
  exact ⟨before, after, found, (locate?_eq_some_iff.mp found).1, rfl⟩

theorem patch?_eq_some {c : NodeId} {p : Patch} {f patched : Forest}
    (h : patch? c p f = some patched) :
    ∃ before d after, locate? c f = some (before, d, after) ∧
      f = before ++ .condition d :: after ∧
      patched = before ++ .condition (d.patch p) :: after := by
  rw [patch?_eq_map_locate?] at h
  obtain ⟨⟨before, d, after⟩, found, rfl⟩ := Option.map_eq_some_iff.mp h
  exact ⟨before, d, after, found, (locate?_eq_some_iff.mp found).1, rfl⟩

/-- The first AND group of the row takes the condition in. -/
theorem appendToAnd?_eq_some {c : Condition} {f grown : Forest}
    (h : appendToAnd? c f = some grown) :
    ∃ before g after, f = before ++ .group g :: after ∧ g.kind = .and ∧
      (∀ n ∈ before, n.isAnd = false) ∧ grown = before ++ .group (Group.append g c) :: after := by
  induction f generalizing grown with
  | nil => cases h
  | cons n rest ih =>
    -- a node that is passed over stands before the group
    have pass (other : n.isAnd = false) (h : (appendToAnd? c rest).map (n :: ·) = some grown) :
        ∃ before g after, n :: rest = before ++ .group g :: after ∧ g.kind = .and ∧
          (∀ n ∈ before, n.isAnd = false) ∧
          grown = before ++ .group (Group.append g c) :: after := by
      obtain ⟨row, found, rfl⟩ := Option.map_eq_some_iff.mp h
      obtain ⟨before, g, after, rfl, and, first, rfl⟩ := ih found
      exact ⟨n :: before, g, after, rfl, and, List.forall_mem_cons.mpr ⟨other, first⟩, rfl⟩
    cases n with
    | condition e => exact pass rfl h
    | group k =>
      unfold appendToAnd? at h
      split at h
      · rename_i and
        cases h
        exact ⟨[], k, rest, rfl, and, nofun, rfl⟩
      · rename_i other
        exact pass (decide_eq_false other) h

theorem appendToAnd?_eq_none {c : Condition} {f : Forest} (h : appendToAnd? c f = none) :
    ∀ n ∈ f, n.isAnd = false := by
  induction f with
  | nil => nofun
  | cons n rest ih =>
    rw [List.forall_mem_cons]
    cases n with
    | condition d => exact ⟨rfl, ih (Option.map_eq_none_iff.mp h)⟩
    | group g =>
      unfold appendToAnd? at h
      split at h
      · cases h
      · rename_i other
        exact ⟨decide_eq_false other, ih (Option.map_eq_none_iff.mp h)⟩

/-- A row grows after its first group by a condition in the first AND group that follows, or by an AND
group if none does. -/
theorem growAfter_cases (fresh : Fresh) (g : Group) (rest : Forest) :
    (∃ before a after, rest = before ++ .group a :: after ∧ a.kind = .and ∧
        (∀ n ∈ before, n.isAnd = false) ∧ g.growAfter fresh rest =
          .group g :: (before ++ .group (Group.append a (.blank fresh.condition)) :: after)) ∨
      ((∀ n ∈ rest, n.isAnd = false) ∧
        g.growAfter fresh rest = .group g :: .group (Group.blank .and fresh none) :: rest) := by
  unfold Group.growAfter
  cases found : appendToAnd? (.blank fresh.condition) rest with
  | none => exact .inr ⟨appendToAnd?_eq_none found, rfl⟩
  | some grown =>
    obtain ⟨before, a, after, whole, and, first, rfl⟩ := appendToAnd?_eq_some found
    exact .inl ⟨before, a, after, whole, and, first, rfl⟩

end FilterTree.Forest

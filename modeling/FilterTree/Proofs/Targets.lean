import FilterTree.Proofs.Recital
import FilterTree.Proofs.Siblings
import FilterTree.Proofs.Tidying

namespace FilterTree

namespace Forest

theorem Rewrite.exists_row {change : Forest → Forest → Prop} {f f' : Forest}
    (h : Rewrite change f f') : ∃ row row', change row row' := by
  induction h with
  | here made => exact ⟨_, _, made⟩
  | after _ _ ih => exact ih
  | inside _ _ _ ih => exact ih

theorem isSome_pluck? (c : NodeId) (f : Forest) :
    (pluck? c f).isSome = (condition? c f).isSome := by
  rw [pluck?_eq_map_locate?, condition?_eq_map_locate?, Option.isSome_map, Option.isSome_map]

theorem isSome_patch? (c : NodeId) (p : Patch) (f : Forest) :
    (patch? c p f).isSome = (condition? c f).isSome := by
  rw [patch?_eq_map_locate?, condition?_eq_map_locate?, Option.isSome_map, Option.isSome_map]

section
variable {target : NodeId} {change : Group → Forest → Option Forest}

/-- The first group in preorder with the identifier is changed if it can be. -/
theorem isSome_alter?_of_find? {f : Forest} {g : Group}
    (found : (groups f).find? (·.id = target) = some g)
    (made : ∀ rest, (change g rest).isSome = true) : (alter? target change f).isSome = true := by
  induction f using induct with
  | nil => cases found
  | condition c rest ih =>
    rw [alter?_condition, Option.isSome_map]
    exact ih found
  | group k rest ihk ih =>
    rw [alter?_group, Option.orElse_eq_orElse, Option.orElse_eq_or, Option.isSome_or,
      Bool.or_eq_true]
    rw [groups_group, List.find?_cons] at found
    by_cases same : k.id = target
    · simp only [same, decide_true] at found
      cases found
      rw [if_pos same]
      exact .inl (made rest)
    · simp only [same, decide_false, List.find?_append, Option.or_eq_some_iff] at found
      rw [if_neg same, Option.isSome_map, Option.isSome_map]
      rcases found with below | ⟨_, later⟩
      · exact .inl (ihk below)
      · exact .inr (ih later)

/-- If it depends on the group alone whether the change can be made, a search among groups with
different identifiers succeeds exactly if the group that a lookup finds can be changed. -/
theorem isSome_alter? (target : NodeId) {f : Forest} (nodup : (ids f).Nodup) {takes : Group → Bool}
    (makes : ∀ g rest, (change g rest).isSome = takes g) :
    (alter? target change f).isSome = ((groups f).find? (·.id = target)).any takes := by
  rw [Bool.eq_iff_iff, Option.any_eq_true]
  constructor
  · intro altered
    obtain ⟨f', made⟩ := Option.isSome_iff_exists.mp altered
    obtain ⟨g, mem, rfl, path⟩ := exists_rewrite_of_alter? made
    obtain ⟨_, _, rest, rfl, changed⟩ := path.exists_row
    refine ⟨g, find?_key (nodup.sublist (ids_groups_sublist f)) mem, ?_⟩
    rw [← makes g rest, changed]
    rfl
  · rintro ⟨g, found, taken⟩
    exact isSome_alter?_of_find? found fun rest => (makes g rest).trans taken

/-- A deletion finds what an edit of the same condition finds. -/
theorem isSome_delete? (group condition : NodeId) (f : Forest) :
    (delete? group condition f).isSome =
      (alter? group (fun g rest => (pluck? condition g.children).map fun _ => rest) f).isSome := by
  induction f using induct with
  | nil => rfl
  | condition c rest ih => rw [delete?_condition, alter?_condition, Option.isSome_map, ih,
      Option.isSome_map]
  | group g rest ihg ih =>
    rw [delete?_group, alter?_group]
    simp only [Option.orElse_eq_orElse, Option.orElse_eq_or, Option.isSome_or, Option.isSome_map, ih]
    split
    · simp only [Option.isSome_map]
    · simp only [Option.isSome_map, ihg]

end

end Forest

/-- The edit says that it changed `m` exactly if there was something to be found, and gives back `m`
itself if it says that it did not. -/
structure Edited.Answers (e : Edited) (m : Model) (found : Bool) : Prop where
  changed : e.changed = found
  kept : e.changed = false → e.model = m

theorem Edited.Answers.unchanged {e : Edited} {m : Model} {found : Bool} (h : e.Answers m found)
    (missed : found = false) : e.model = m := h.kept (h.changed.trans missed)

theorem Edited.answers_ofForest (m : Model) (f : Option Forest) :
    (ofForest m f).Answers m f.isSome := by
  cases f with
  | none => exact ⟨rfl, fun _ => rfl⟩
  | some row => exact ⟨rfl, nofun⟩

namespace Model

variable {m : Model}

/-- An edit of a group that is there is made somewhere in the row of roots. -/
theorem exists_rewrite_of_mem (valid : m.Valid) {g : Group} (mem : g ∈ m.groups)
    (change : Group → Forest → Option Forest) (makes : ∀ rest, (change g rest).isSome = true) :
    ∃ f, m.alter g.id change = ⟨.ofForest f, true⟩ ∧
      Forest.Rewrite (fun row row' => ∃ rest, row = .group g :: rest ∧ change g rest = some row')
        m.forest f := by
  have found := Forest.isSome_alter?_of_find? (group?_of_mem valid mem) makes
  obtain ⟨f, made⟩ := Option.isSome_iff_exists.mp found
  obtain ⟨k, here, path⟩ := exists_rewrite_of_alter? valid made
  obtain rfl : g = k := Option.some_inj.mp ((group?_of_mem valid mem).symm.trans here)
  exact ⟨f, by rw [alter, made]; rfl, path⟩

theorem isSome_condition? (m : Model) (group condition : NodeId) :
    (m.condition? group condition).isSome =
      (m.group? group).any fun g => (Forest.condition? condition g.children).isSome :=
  Option.isSome_bind _ _

theorem answers_alter (valid : m.Valid) (target : NodeId) {change : Group → Forest → Option Forest}
    {takes : Group → Bool} (makes : ∀ g rest, (change g rest).isSome = takes g) :
    (m.alter target change).Answers m ((m.group? target).any takes) := by
  have found := Forest.isSome_alter? target valid.nodup_ids makes
  rw [group?, groups, ← found]
  exact Edited.answers_ofForest m _

theorem answers_alter_group (valid : m.Valid) {target : NodeId}
    {change : Group → Forest → Option Forest} (makes : ∀ g rest, (change g rest).isSome = true) :
    (m.alter target change).Answers m (m.group? target).isSome := by
  have answers := answers_alter valid target makes
  rwa [Option.any_true] at answers

theorem answers_alter_condition (valid : m.Valid) {group condition : NodeId}
    {change : Group → Forest → Option Forest}
    (makes : ∀ g rest, (change g rest).isSome = (Forest.condition? condition g.children).isSome) :
    (m.alter group change).Answers m (m.condition? group condition).isSome := by
  rw [isSome_condition?]
  exact answers_alter valid group makes

theorem answers_delete (valid : m.Valid) (group condition : NodeId) (fresh : Fresh) :
    (m.delete group condition fresh).Answers m (m.condition? group condition).isSome := by
  have makes (g : Group) (rest : Forest) :
      ((Forest.pluck? condition g.children).map fun _ => rest).isSome =
        (Forest.condition? condition g.children).isSome := by
    rw [Option.isSome_map, Forest.isSome_pluck?]
  have found := Forest.isSome_alter? group valid.nodup_ids makes
  rw [isSome_condition?, group?, groups, ← found, ← Forest.isSome_delete?]
  unfold delete
  cases Forest.delete? group condition m.forest with
  | none => exact ⟨rfl, fun _ => rfl⟩
  | some row =>
    cases row with
    | nil => exact ⟨rfl, nofun⟩
    | cons n rest => exact ⟨rfl, nofun⟩

/-- **An edit changes the model exactly if its target is found.** In a valid model the edits of a
condition say that they changed something if a lookup finds the condition in the group, and those of a
group if a lookup finds the group, whatever the identifiers name. An edit that changed nothing gives
the model back. -/
theorem changed_iff_found (valid : m.Valid) (group condition : NodeId) (p : Patch) (fresh : Fresh) :
    (m.update group condition p).Answers m (m.condition? group condition).isSome ∧
      (m.split group condition fresh).Answers m (m.condition? group condition).isSome ∧
      (m.delete group condition fresh).Answers m (m.condition? group condition).isSome ∧
      (m.add group fresh).Answers m (m.group? group).isSome ∧
      (m.addAfter group fresh).Answers m (m.group? group).isSome := by
  refine ⟨?_, ?_, answers_delete valid group condition fresh, ?_, ?_⟩
  · apply answers_alter_condition valid
    intro g rest
    rw [Option.isSome_map, Forest.isSome_patch?]
  · rw [split_eq_alter valid]
    apply answers_alter_condition valid
    intro g rest
    rw [Group.splitOff?, Option.isSome_map, Forest.isSome_pluck?]
  · exact answers_alter_group valid fun _ _ => rfl
  · rw [addAfter_eq_alter valid]
    exact answers_alter_group valid fun _ _ => rfl

/-- A condition is found in the group that holds it and not in the group above, and a condition is no
group. -/
theorem changed_iff_found_branching :
    let fresh : Fresh := ⟨⟨"r"⟩, ⟨"g"⟩, ⟨"k"⟩⟩
    branching.Valid ∧ (branching.delete ⟨"three"⟩ ⟨"a"⟩ fresh).changed = true ∧
      branching.split ⟨"two"⟩ ⟨"a"⟩ fresh = ⟨branching, false⟩ ∧
      branching.addAfter ⟨"a"⟩ fresh = ⟨branching, false⟩ := by
  intro fresh
  have valid : branching.Valid := by constructor <;> decide
  obtain ⟨_, _, deleted, _⟩ := changed_iff_found valid ⟨"three"⟩ ⟨"a"⟩ {} fresh
  obtain ⟨_, split, _⟩ := changed_iff_found valid ⟨"two"⟩ ⟨"a"⟩ {} fresh
  obtain ⟨_, _, _, _, added⟩ := changed_iff_found valid ⟨"a"⟩ ⟨"a"⟩ {} fresh
  have held : (branching.condition? ⟨"three"⟩ ⟨"a"⟩).isSome = true := by decide
  have away : (branching.condition? ⟨"two"⟩ ⟨"a"⟩).isSome = false := by decide
  have absent : (branching.group? ⟨"a"⟩).isSome = false := by decide
  have kept {e : Edited} (h : e.Answers branching false) : e = ⟨branching, false⟩ := by
    obtain ⟨k, changed⟩ := e
    obtain rfl : changed = false := h.changed
    rw [← h.kept rfl]
  exact ⟨valid, deleted.changed.trans held, kept (away ▸ split), kept (absent ▸ added)⟩

end Model

end FilterTree

import FilterTree.Draft
import FilterTree.Proofs.Lookup
import FilterTree.Proofs.Prefix
import FilterTree.Proofs.Tidying

/-!
# What one action does

Everything that is done to a draft, but for replacing its model, is a change of one row, a deletion,
a cut, or a new beginning.

* `Forest.RowEdit`: what becomes of the row that opens with the group an edit addresses;
* `Forest.Step`, `Model.Next`: what becomes of the row of roots, and of the model;
* `reworked_update` to `reworked_split`, `next_delete`, `next_cut`: the edits one by one;
* `Action.next_of_update`, `Action.next_apply`: everything that is done to a draft.
-/

namespace FilterTree

namespace Forest

section
variable (patched : Condition → Patch → Prop) (fresh : Fresh)

/-- The first row opens with the group that an edit addresses, and the second is what the edit makes
of it with identifiers of the batch. Only a condition and a patch that are related are put
together. -/
inductive RowEdit : Forest → Forest → Prop where
  | patch {g : Group} {before after rest : Forest} {d : Condition} {p : Patch}
      (related : patched d p) (children : g.children = before ++ .condition d :: after) :
      RowEdit (.group g :: rest)
        (.group { g with children := before ++ .condition (d.patch p) :: after } :: rest)
  | append (g : Group) (rest : Forest) :
      RowEdit (.group g :: rest) (.group (Group.append g (.blank fresh.condition)) :: rest)
  | appendLater (g : Group) {before after : Forest} {k : Group} (and : k.kind = .and)
      (first : ∀ n ∈ before, n.isAnd = false) :
      RowEdit (.group g :: (before ++ .group k :: after))
        (.group g :: (before ++ .group (Group.append k (.blank fresh.condition)) :: after))
  | insert (g : Group) {rest : Forest} (lacking : ∀ n ∈ rest, n.isAnd = false) :
      RowEdit (.group g :: rest) (.group g :: .group (Group.blank .and fresh none) :: rest)
  | split {g : Group} {before after rest : Forest} {d : Condition}
      (children : g.children = before ++ .condition d :: after) (left : before ++ after ≠ []) :
      RowEdit (.group g :: rest)
        (.group { g with children := before ++ after } ::
          .group (Group.blank .or fresh (some (.condition d))) :: rest)
  | lift {g : Group} {rest : Forest} {d : Condition} (children : g.children = [.condition d]) :
      RowEdit (.group g :: rest)
        (.group (Group.blank .or fresh (some (.condition d))) :: rest)

/-- What one action may make of the row of roots. -/
inductive Step : Forest → Forest → Prop where
  | edit {f f' : Forest} (made : Rewrite (RowEdit patched fresh) f f') : Step f f'
  | delete {group condition : NodeId} {f row : Forest} {tidied : List Group}
      (path : Deletes group condition f row tidied) (left : row ≠ []) : Step f row
  | cut (before : Forest) (g : Group) (after : Forest) (n : Nat) :
      Step (before ++ .group g :: after) (before ++ (Node.group g).keep (n + 1))
  | begin (f : Forest) : Step f (Model.blank fresh).forest

end

variable {patched : Condition → Patch → Prop} {fresh : Fresh}

theorem onlyGroups_of_rowEdit {row row' : Forest} (h : RowEdit patched fresh row row')
    (groups : OnlyGroups row) : OnlyGroups row' := by
  cases h <;> simpa using groups

theorem onlyGroups_of_rewrite {change : Forest → Forest → Prop}
    (row : ∀ f f', change f f' → OnlyGroups f → OnlyGroups f') {f f' : Forest}
    (h : Rewrite change f f') (groups : OnlyGroups f) : OnlyGroups f' := by
  induction h with
  | here made => exact row _ _ made groups
  | after n _ ih =>
    rw [onlyGroups_cons] at groups ⊢
    exact ⟨groups.1, ih groups.2⟩
  | inside g rest _ _ => simpa using groups

end Forest

namespace Action

def isReplace : Action → Bool
  | .replace _ => true
  | _ => false

/-- The action makes the patch to the condition, which is found in the model by the identifiers that
the action names. -/
def Patches (a : Action) (m : Model) (d : Condition) (p : Patch) : Prop :=
  ∃ group condition, a = .update group condition p ∧ m.condition? group condition = some d

end Action

namespace Model

section
variable (patched : Condition → Patch → Prop) (fresh : Fresh)

/-- The second model is the first, or it is the first with one row edited. -/
def Reworked (m k : Model) : Prop :=
  k = m ∨ Forest.Rewrite (Forest.RowEdit patched fresh) m.forest k.forest

def Next (m k : Model) : Prop := k = m ∨ Forest.Step patched fresh m.forest k.forest

end

section
variable {m : Model} {patched : Condition → Patch → Prop} {fresh : Fresh}

theorem Reworked.next {k : Model} (h : m.Reworked patched fresh k) : m.Next patched fresh k :=
  h.imp_right .edit

theorem reworked_ofForest {found : Option Forest}
    (made : ∀ f, found = some f → Forest.Rewrite (Forest.RowEdit patched fresh) m.forest f) :
    m.Reworked patched fresh (Edited.ofForest m found).model := by
  cases found with
  | none => exact .inl rfl
  | some f =>
    have rewrites := made f rfl
    have groups := Forest.onlyGroups_of_rewrite (fun _ _ => Forest.onlyGroups_of_rowEdit) rewrites
      m.onlyGroups_forest
    right
    show Forest.Rewrite (Forest.RowEdit patched fresh) m.forest (ofForest f).forest
    rwa [forest_ofForest groups]

/-- An edit leaves the model as it is, or it changes a row that opens with a group that has the
identifier. -/
theorem reworked_alter {target : NodeId} {change : Group → Forest → Option Forest}
    (row : ∀ g ∈ m.groups, g.id = target → ∀ rest row', change g rest = some row' →
      Forest.RowEdit patched fresh (.group g :: rest) row') :
    m.Reworked patched fresh (m.alter target change).model := by
  apply reworked_ofForest
  intro f found
  obtain ⟨g, mem, same, path⟩ := Forest.exists_rewrite_of_alter? found
  apply path.mono
  rintro _ row' ⟨rest, rfl, made⟩
  exact row g mem same rest row' made

theorem reworked_alterBeside {target : NodeId} {change : Group → Forest → Option Forest}
    (row : ∀ g rest row', change g rest = some row' →
      Forest.RowEdit patched fresh (.group g :: rest) row') :
    m.Reworked patched fresh (m.alterBeside target change).model := by
  apply reworked_ofForest
  intro f found
  have path : Forest.Rewrite
      (fun row row' => ∃ g rest, row = .group g :: rest ∧ change g rest = some row')
      m.forest f := by
    split at found
    · exact Forest.rewrite_of_alterRow? found
    · exact Forest.rewrite_of_alterBelow? found
  apply path.mono
  rintro _ row' ⟨g, rest, rfl, made⟩
  exact row g rest row' made

theorem reworked_update {group condition : NodeId} {p : Patch}
    (related : ∀ g ∈ m.groups, g.id = group → ∀ d,
      Forest.condition? condition g.children = some d → patched d p) :
    m.Reworked patched fresh (m.update group condition p).model := by
  apply reworked_alter
  intro g mem same rest row' made
  obtain ⟨row, within, rfl⟩ := Option.map_eq_some_iff.mp made
  obtain ⟨before, d, after, place, children, rfl⟩ := Forest.patch?_eq_some within
  have target : Forest.condition? condition g.children = some d := by
    rw [Forest.condition?_eq_map_locate?, place, Option.map_some]
  exact .patch (related g mem same d target) children

theorem reworked_add (group : NodeId) : m.Reworked patched fresh (m.add group fresh).model := by
  apply reworked_alter
  intro g _ _ rest row' made
  cases made
  exact .append g rest

theorem reworked_addAfter (group : NodeId) :
    m.Reworked patched fresh (m.addAfter group fresh).model := by
  apply reworked_alterBeside
  intro g rest row' made
  cases made
  rcases Forest.growAfter_cases fresh g rest with
    ⟨before, a, after, rfl, and, first, grown⟩ | ⟨lacking, grown⟩
  · rw [grown]
    exact .appendLater g and first
  · rw [grown]
    exact .insert g lacking

theorem reworked_split (group condition : NodeId) :
    m.Reworked patched fresh (m.split group condition fresh).model := by
  apply reworked_alterBeside
  intro g rest row' made
  obtain ⟨⟨d, others⟩, found, rfl⟩ := Option.map_eq_some_iff.mp made
  obtain ⟨before, after, _, children, rfl⟩ := Forest.pluck?_eq_some found
  simp only
  split
  · rename_i empty
    obtain ⟨rfl, rfl⟩ : before = [] ∧ after = [] := by simpa using empty
    exact .lift children
  · rename_i inhabited
    exact .split children (by simpa using inhabited)

theorem next_delete (m : Model) (group condition : NodeId) :
    m.Next patched fresh (m.delete group condition fresh).model := by
  rcases m.delete_cases group condition fresh with ⟨_, _, kept⟩ | ⟨row, path, groups, deleted⟩
  · rw [kept]
    exact .inl rfl
  · rw [deleted]
    simp only
    split
    · exact .inr (.begin _)
    · rename_i left
      right
      rw [forest_ofForest groups]
      exact .delete path left

theorem next_cut (m : Model) (root leaf : Nat) :
    m.Next patched fresh (m.cut root leaf).model := by
  unfold cut
  split
  · exact .inl rfl
  · rename_i g found
    split
    · have parts := forest_eq_of_root found
      have groups : Forest.OnlyGroups (m.forest.take root ++ (Node.group g).keep (leaf + 1)) := by
        have whole := m.onlyGroups_forest
        rw [parts, Forest.onlyGroups_append] at whole
        exact (Forest.onlyGroups_append _ _).mpr ⟨whole.1, Forest.onlyGroups_keep_group _ g⟩
      have step : Forest.Step patched fresh
          (m.forest.take root ++ .group g :: m.forest.drop (root + 1))
          (m.forest.take root ++ (Node.group g).keep (leaf + 1)) := .cut _ _ _ _
      right
      rw [forest_ofForest groups]
      rwa [← parts] at step
    · exact .inl rfl

end

end Model

namespace Action

/-- Every action but a replacement leaves a model as it is or takes one step. What is put together
by an update is a condition of a group that has the identifier, and the patch. -/
theorem next_of_update {patched : Condition → Patch → Prop} (m : Model) (fresh : Fresh) {a : Action}
    (h : a.isReplace = false)
    (related : ∀ group condition p, a = .update group condition p →
      ∀ g ∈ m.groups, g.id = group → ∀ d, Forest.condition? condition g.children = some d →
        patched d p) :
    m.Next patched fresh (a.apply fresh m).model := by
  cases a with
  | update group condition p =>
    exact (Model.reworked_update (related group condition p rfl)).next
  | add group => exact (Model.reworked_add group).next
  | addAfter group => exact (Model.reworked_addAfter group).next
  | split group condition => exact (Model.reworked_split group condition).next
  | delete group condition => exact m.next_delete group condition
  | cut root leaf => exact m.next_cut root leaf
  | cutTo crumb => exact m.next_cut crumb.root crumb.leaf
  | reset => exact .inr (.begin _)
  | replace k => cases h

/-- In a valid model the condition is the one that a lookup finds. -/
theorem next_apply {m : Model} (valid : m.Valid) (fresh : Fresh) {a : Action}
    (h : a.isReplace = false) : m.Next (a.Patches m) fresh (a.apply fresh m).model := by
  apply next_of_update m fresh h
  intro group condition p update g mem same d found
  refine ⟨group, condition, update, ?_⟩
  rw [Model.condition?, ← same, Model.group?_of_mem valid mem, Option.bind_some, found]

end Action

end FilterTree

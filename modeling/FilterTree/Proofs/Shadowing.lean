import FilterTree.Proofs.Addressing

/-!
# A name that begins another

The whole identifier of a node is an opening like any other: the nodes whose identifiers start with
it are counted, and the node itself is not preferred. So a node cannot be named if its identifier is
the beginning of another one.
-/

namespace FilterTree

/-- Two entries of a list are counted as two. -/
theorem two_le_countP {α : Type} {l : List α} {p : α → Bool} {a b : α} (ha : a ∈ l) (hb : b ∈ l)
    (ne : a ≠ b) (pa : p a = true) (pb : p b = true) : 2 ≤ l.countP p := by
  have first : a ∈ l.filter p := List.mem_filter.mpr ⟨ha, pa⟩
  have second : b ∈ l.filter p := List.mem_filter.mpr ⟨hb, pb⟩
  have positive := List.length_pos_of_mem first
  have many : (l.filter p).length ≠ 1 := by
    intro one
    obtain ⟨x, alone⟩ := List.length_eq_one_iff.mp one
    rw [alone, List.mem_singleton] at first second
    exact ne (first.trans second.symm)
  rw [List.countP_eq_length_filter]
  omega

namespace Model

variable {m : Model} {opening : String}

/-- The identifier of another condition goes on from that of `c`. -/
def ShadowsCondition (m : Model) (c : Condition) : Prop :=
  ∃ d ∈ m.leaves, d ≠ c ∧ c.id.text.toList <+: d.id.text.toList

def ShadowsGroup (m : Model) (g : Group) : Prop :=
  ∃ k ∈ m.groups, k ≠ g ∧ g.id.text.toList <+: k.id.text.toList

def conditionCount (m : Model) (opening : String) : Nat := m.leaves.countP (·.id.opensWith opening)

def groupCount (m : Model) (opening : String) : Nat := m.groups.countP (·.id.opensWith opening)

theorem length_filter_placed (m : Model) (opening : String) :
    (m.placed.filter (·.2.opensWith opening)).length = m.conditionCount opening := by
  have counts := m.map_placed_perm.countP_eq (·.opensWith opening)
  rw [List.countP_map, List.countP_map] at counts
  rw [← List.countP_eq_length_filter]
  exact counts

/-- An opening is refused unless it is that of one condition, and it is told of how many it is. -/
theorem resolveCondition_eq_error_iff {e : ConsoleError} :
    m.resolveCondition opening = .error e ↔
      m.conditionCount opening ≠ 1 ∧ e = .conditionMatches opening (m.conditionCount opening) := by
  rw [← length_filter_placed]
  unfold resolveCondition
  split
  · rename_i place one
    rw [one]
    exact iff_of_false nofun fun refused => refused.1 rfl
  · rename_i others
    have many : (m.placed.filter (·.2.opensWith opening)).length ≠ 1 := by
      intro one
      obtain ⟨place, alone⟩ := List.length_eq_one_iff.mp one
      exact others place alone
    rw [Except.error.injEq, eq_comm, and_iff_right many]

/-- An opening is refused if it is that of no group or of more than one, and it is told which. -/
theorem resolveGroup_eq_error_iff {e : ConsoleError} :
    m.resolveGroup opening = .error e ↔
      (m.groupCount opening = 0 ∧ e = .noSuchGroup opening) ∨
        (2 ≤ m.groupCount opening ∧ e = .ambiguousGroup opening) := by
  have count : m.groupCount opening =
      ((m.groups.map (·.id)).filter (·.opensWith opening)).length := by
    rw [← List.countP_eq_length_filter, List.countP_map]
    rfl
  rw [count]
  unfold resolveGroup
  split
  · rename_i one
    rw [one]
    simp
  · rename_i absent
    rw [absent]
    simp [eq_comm]
  · rename_i one absent
    have many : 2 ≤ ((m.groups.map (·.id)).filter (·.opensWith opening)).length := by
      cases found : (m.groups.map (·.id)).filter (·.opensWith opening) with
      | nil => exact absurd found absent
      | cons id rest =>
        cases rest with
        | nil => exact absurd found (one id)
        | cons other rest => simp
    have known : ((m.groups.map (·.id)).filter (·.opensWith opening)).length ≠ 0 := by omega
    simp only [known, many, false_and, true_and, false_or, Except.error.injEq, eq_comm]

/-- A condition cannot be named if another one has an identifier that goes on from its own. -/
theorem resolveCondition_ne_of_shadows (valid : m.Valid) {c : Condition} (leaf : c ∈ m.leaves)
    (shadows : m.ShadowsCondition c) (opening : String) (group : NodeId) :
    m.resolveCondition opening ≠ .ok (group, c.id) := by
  intro resolved
  obtain ⟨d, other, ne, goesOn⟩ := shadows
  obtain ⟨g, k, one, _, same⟩ := (resolveCondition_eq_ok_iff valid).mp resolved
  have here : k = c :=
    List.inj_on_of_nodup_map (nodup_leaves valid) (mem_leaves_of_held one.known one.held) leaf same
  have opens := one.opens
  rw [here] at opens
  exact ne ((one.only d other (opens.trans goesOn)).trans here)

/-- A group cannot be named if another one has an identifier that goes on from its own. -/
theorem resolveGroup_ne_of_shadows (valid : m.Valid) {g : Group} (known : g ∈ m.groups)
    (shadows : m.ShadowsGroup g) (opening : String) : m.resolveGroup opening ≠ .ok g.id := by
  intro resolved
  obtain ⟨k, other, ne, goesOn⟩ := shadows
  obtain ⟨h, one, same⟩ := (resolveGroup_eq_ok_iff valid).mp resolved
  have nodup : (m.groups.map (·.id)).Nodup :=
    valid.nodup_ids.sublist (Forest.ids_groups_sublist m.forest)
  have here : h = g := List.inj_on_of_nodup_map nodup one.known known same
  have opens := one.opens
  rw [here] at opens
  exact ne ((one.only k other (opens.trans goesOn)).trans here)

/-- **The whole name leads to a node unless it begins another name.** In a valid model, the
identifier of a condition is resolved to the condition and the group that holds it, and the
identifier of a group to the group, if no other condition or group has an identifier that goes on
from it. Otherwise it is refused because it is the opening of several, and no other opening leads to
the node either. -/
theorem resolve_whole (valid : m.Valid) {g : Group} (known : g ∈ m.groups) :
    (∀ c, .condition c ∈ g.children →
      (¬ m.ShadowsCondition c → m.resolveCondition c.id.text = .ok (g.id, c.id)) ∧
        (m.ShadowsCondition c →
          (∃ n, 2 ≤ n ∧ m.resolveCondition c.id.text = .error (.conditionMatches c.id.text n)) ∧
            ∀ opening group, m.resolveCondition opening ≠ .ok (group, c.id))) ∧
      (¬ m.ShadowsGroup g → m.resolveGroup g.id.text = .ok g.id) ∧
      (m.ShadowsGroup g → m.resolveGroup g.id.text = .error (.ambiguousGroup g.id.text) ∧
        ∀ opening, m.resolveGroup opening ≠ .ok g.id) := by
  refine ⟨fun c held => ⟨?_, ?_⟩, ?_, ?_⟩
  · intro clear
    refine (resolveCondition_eq_ok_iff valid).mpr
      ⟨g, c, ⟨known, held, List.prefix_refl _, ?_⟩, rfl, rfl⟩
    intro d leaf goesOn
    exact Classical.byContradiction fun ne => clear ⟨d, leaf, ne, goesOn⟩
  · intro shadows
    have leaf := mem_leaves_of_held known held
    refine ⟨⟨m.conditionCount c.id.text, ?_⟩, resolveCondition_ne_of_shadows valid leaf shadows⟩
    obtain ⟨d, other, ne, goesOn⟩ := shadows
    have many : 2 ≤ m.conditionCount c.id.text :=
      two_le_countP other leaf ne (NodeId.opensWith_iff.mpr goesOn)
        (NodeId.opensWith_iff.mpr (List.prefix_refl _))
    exact ⟨many, resolveCondition_eq_error_iff.mpr ⟨by omega, rfl⟩⟩
  · intro clear
    refine (resolveGroup_eq_ok_iff valid).mpr ⟨g, ⟨known, List.prefix_refl _, ?_⟩, rfl⟩
    intro k other goesOn
    exact Classical.byContradiction fun ne => clear ⟨k, other, ne, goesOn⟩
  · intro shadows
    refine ⟨?_, resolveGroup_ne_of_shadows valid known shadows⟩
    obtain ⟨k, other, ne, goesOn⟩ := shadows
    have many : 2 ≤ m.groupCount g.id.text :=
      two_le_countP other known ne (NodeId.opensWith_iff.mpr goesOn)
        (NodeId.opensWith_iff.mpr (List.prefix_refl _))
    exact resolveGroup_eq_error_iff.mpr (.inr ⟨many, rfl⟩)

/-- Numbered nodes: `c1` begins `c10`, and `g1` begins `g10`. -/
def numbered : Model :=
  let term (id : String) : Condition := { id := ⟨id⟩, field := "a", operator := "=", value := "1" }
  ⟨[⟨⟨"g1"⟩, .and, [.condition (term "c1"), .condition (term "c10")]⟩,
    ⟨⟨"g10"⟩, .and, [.condition (term "c2")]⟩]⟩

/-- Whatever is typed, neither `c1` nor `g1` is ever meant, while `c10` is found under its name. -/
theorem resolve_whole_numbered :
    numbered.Accepted ∧
      numbered.resolveCondition "c1" = .error (.conditionMatches "c1" 2) ∧
      (∀ opening group, numbered.resolveCondition opening ≠ .ok (group, ⟨"c1"⟩)) ∧
      (∀ opening, numbered.resolveGroup opening ≠ .ok ⟨"g1"⟩) ∧
      numbered.resolveCondition "c10" = .ok (⟨"g1"⟩, ⟨"c10"⟩) := by
  have accepted : numbered.Accepted := rfl
  have known : numbered.groups[0] ∈ numbered.groups := List.getElem_mem _
  obtain ⟨conditions, _, groups⟩ := resolve_whole (accepted_iff_valid.mp accepted) known
  have shadowed : numbered.ShadowsCondition numbered.leaves[0] :=
    ⟨numbered.leaves[1], List.getElem_mem _, by decide, ⟨['0'], rfl⟩⟩
  have clear : ¬ numbered.ShadowsCondition numbered.leaves[1] := by
    unfold ShadowsCondition
    decide
  exact ⟨accepted, rfl, ((conditions numbered.leaves[0] (by decide)).2 shadowed).2,
    (groups ⟨numbered.groups[1], List.getElem_mem _, by decide, ⟨['0'], rfl⟩⟩).2,
    (conditions numbered.leaves[1] (by decide)).1 clear⟩

end Model

end FilterTree

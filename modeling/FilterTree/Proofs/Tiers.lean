import FilterTree.Proofs.Lifetime

namespace FilterTree

namespace Forest

/-- The nodes of the row itself are conditions. -/
def OnlyConditions (f : Forest) : Prop := ∀ n ∈ f, n.group? = none

/-- There are at most `n` tiers of groups in the forest, and an OR group on any of them holds
conditions only. -/
def Tiered : Nat → Forest → Prop
  | 0, f => OnlyConditions f
  | n + 1, f => ∀ g, .group g ∈ f →
      Tiered n g.children ∧ (g.kind = .or → OnlyConditions g.children)

variable {n : Nat}

theorem onlyConditions_append {f g : Forest} :
    OnlyConditions (f ++ g) ↔ OnlyConditions f ∧ OnlyConditions g := List.forall_mem_append

theorem tiered_of_onlyConditions {f : Forest} (only : OnlyConditions f) : Tiered n f := by
  cases n with
  | zero => exact only
  | succ n => exact fun g mem => nomatch only _ mem

@[simp] theorem tiered_nil : Tiered n [] := tiered_of_onlyConditions nofun

@[simp] theorem tiered_append {f g : Forest} : Tiered n (f ++ g) ↔ Tiered n f ∧ Tiered n g := by
  cases n with
  | zero => exact onlyConditions_append
  | succ n =>
    constructor
    · intro tiered
      exact ⟨fun k mem => tiered k (List.mem_append_left _ mem),
        fun k mem => tiered k (List.mem_append_right _ mem)⟩
    · rintro ⟨first, second⟩ k mem
      exact (List.mem_append.mp mem).elim (first k) (second k)

theorem tiered_cons {k : Node} {rest : Forest} : Tiered n (k :: rest) ↔ Tiered n [k] ∧ Tiered n rest :=
  tiered_append (f := [k])

@[simp] theorem tiered_condition {c : Condition} {rest : Forest} :
    Tiered n (.condition c :: rest) ↔ Tiered n rest := by
  have only : OnlyConditions [.condition c] := by simp [OnlyConditions, Node.group?]
  rw [tiered_cons, and_iff_right (tiered_of_onlyConditions only)]

theorem not_tiered_zero {g : Group} {rest : Forest} : ¬ Tiered 0 (.group g :: rest) :=
  fun only => nomatch only _ List.mem_cons_self

@[simp] theorem tiered_group {g : Group} {rest : Forest} :
    Tiered (n + 1) (.group g :: rest) ↔
      Tiered n g.children ∧ (g.kind = .or → Tiered 0 g.children) ∧ Tiered (n + 1) rest := by
  rw [tiered_cons, ← and_assoc]
  simp [Tiered]

/-! ## Edits -/

/-- What keeps the tiers of one row keeps those of the forest, on whichever tier the row stands. -/
theorem tiered_of_rewrite {change : Forest → Forest → Prop}
    (row : ∀ n f f', change f f' → Tiered n f → Tiered n f') {f f' : Forest}
    (h : Rewrite change f f') (tiered : Tiered n f) : Tiered n f' := by
  induction h generalizing n with
  | here made => exact row _ _ _ made tiered
  | after k _ ih =>
    rw [tiered_cons] at tiered ⊢
    exact ⟨tiered.1, ih tiered.2⟩
  | inside g rest _ ih =>
    cases n with
    | zero => exact absurd tiered not_tiered_zero
    | succ n =>
      obtain ⟨below, or, later⟩ := tiered_group.mp tiered
      exact tiered_group.mpr ⟨ih below, fun kind => ih (or kind), later⟩

theorem tiered_of_rowEdit {patched : Condition → Patch → Prop} {fresh : Fresh} {row row' : Forest}
    (h : RowEdit patched fresh row row') (tiered : Tiered n row) : Tiered n row' := by
  cases n with
  | zero => cases h <;> exact absurd tiered not_tiered_zero
  | succ n =>
    cases h with
    | patch _ children =>
      rw [tiered_group, children] at tiered
      simpa using tiered
    | append => simpa [Group.append] using tiered
    | appendLater => simpa [Group.append] using tiered
    | insert => simpa [Group.blank] using tiered
    | split children =>
      rw [tiered_group, children] at tiered
      simpa [Group.blank] using tiered
    | lift => simpa [Group.blank] using (tiered_group.mp tiered).2.2

theorem tiered_mergeAnds {f : Forest} (tiered : Tiered n f) : Tiered n (mergeAnds f) := by
  induction f using mergeAnds_induct with
  | nil => exact tiered
  | stay k rest _ ih =>
    rw [tiered_cons] at tiered ⊢
    exact ⟨tiered.1, ih tiered.2⟩
  | fold a b rest after and _ _ ih =>
    cases n with
    | zero => exact absurd tiered not_tiered_zero
    | succ n =>
      obtain ⟨first, _, later⟩ := tiered_group.mp tiered
      obtain ⟨second, _, others⟩ := tiered_group.mp (ih later)
      have not_or : a.kind ≠ .or := by simp [and]
      exact tiered_group.mpr ⟨tiered_append.mpr ⟨first, second⟩, fun or => absurd or not_or, others⟩

/-- A group over what is left to it has an OR only if it had one before. -/
theorem tiered_settle {id : NodeId} {kind : Kind} {row : Forest} (tiered : Tiered n row)
    (or : kind = .or → Tiered 0 row) : Tiered (n + 1) (Group.settle id kind row) := by
  rcases Group.settle_cases id kind row with ⟨_, settled⟩ | ⟨_, kind', settled, old⟩
  · rw [settled]
    exact tiered_nil
  · rw [settled, tiered_group]
    refine ⟨tiered_mergeAnds tiered, fun now => tiered_mergeAnds (or ?_), tiered_nil⟩
    rcases old with ⟨_, and⟩ | ⟨_, same⟩
    · rw [and] at now
      cases now
    · exact same ▸ now

theorem Deletes.tiered {group condition : NodeId} {f row : Forest} {tidied : List Group}
    (h : Deletes group condition f row tidied) (tiered : Tiered n f) : Tiered n row := by
  induction h generalizing n with
  | here _ found =>
    obtain ⟨before, after, _, children, rfl⟩ := pluck?_eq_some found
    cases n with
    | zero => exact absurd tiered not_tiered_zero
    | succ n =>
      rw [tiered_group, children] at tiered
      simp only [tiered_append, tiered_condition] at tiered ⊢
      exact ⟨tiered_settle (tiered_append.mpr tiered.1) fun or => tiered_append.mpr (tiered.2.1 or),
        tiered.2.2⟩
  | inside _ _ ih =>
    cases n with
    | zero => exact absurd tiered not_tiered_zero
    | succ n =>
      obtain ⟨below, or, later⟩ := tiered_group.mp tiered
      rw [tiered_append]
      exact ⟨tiered_settle (ih below) fun kind => ih (or kind), later⟩
  | after _ _ ih =>
    rw [tiered_cons] at tiered ⊢
    exact ⟨tiered.1, ih tiered.2⟩

theorem tiered_keep {f : Forest} (leaves : Nat) (tiered : Tiered n f) : Tiered n (keep leaves f) := by
  induction f using induct generalizing n leaves with
  | nil => exact tiered
  | condition c rest ih =>
    rw [keep_cons, tiered_append]
    refine ⟨?_, ih _ (tiered_condition.mp tiered)⟩
    unfold Node.keep
    split <;> simp
  | group g rest ihg ih =>
    cases n with
    | zero => exact absurd tiered not_tiered_zero
    | succ n =>
      obtain ⟨below, or, later⟩ := tiered_group.mp tiered
      rw [keep_cons, tiered_append]
      refine ⟨?_, ih _ later⟩
      rcases Node.keep_group_cases leaves g with ⟨_, kept⟩ | ⟨_, kept⟩
      · rw [kept]
        exact tiered_nil
      · rw [kept, tiered_group]
        exact ⟨ihg _ below, fun kind => ihg _ (or kind), tiered_nil⟩

theorem tiered_blank {fresh : Fresh} : Tiered 2 (Model.blank fresh).forest := by
  simp [Model.blank, Model.forest, Group.blank]

theorem tiered_of_step {patched : Condition → Patch → Prop} {fresh : Fresh} {f f' : Forest}
    (h : Step patched fresh f f') (tiered : Tiered 2 f) : Tiered 2 f' := by
  cases h with
  | edit made => exact tiered_of_rewrite (fun _ _ _ => tiered_of_rowEdit) made tiered
  | delete path _ => exact path.tiered tiered
  | cut before g after leaves =>
    rw [tiered_append, tiered_cons] at tiered
    have kept := tiered_keep (leaves + 1) tiered.2.1
    rw [keep_cons, keep_nil, List.append_nil] at kept
    exact tiered_append.mpr ⟨tiered.1, kept⟩
  | begin => exact tiered_blank

/-! ## What the tiers say of the groups -/

theorem groups_eq_nil {f : Forest} (only : OnlyConditions f) : groups f = [] := by
  induction f with
  | nil => rfl
  | cons n rest ih =>
    cases n with
    | condition c => exact ih fun k mem => only k (List.mem_cons_of_mem _ mem)
    | group g => exact nomatch only _ List.mem_cons_self

theorem Tiered.onlyConditions {f : Forest} (tiered : Tiered n f) {g : Group} (mem : g ∈ groups f)
    (or : g.kind = .or) : OnlyConditions g.children := by
  induction f using Forest.induct generalizing n with
  | nil => cases mem
  | condition c rest ih => exact ih (tiered_condition.mp tiered) mem
  | group k rest ihk ih =>
    cases n with
    | zero => exact absurd tiered not_tiered_zero
    | succ n =>
      obtain ⟨below, flat, later⟩ := tiered_group.mp tiered
      rw [groups_group, List.mem_cons, List.mem_append] at mem
      rcases mem with rfl | inside | after
      · exact flat or
      · exact ihk below inside
      · exact ih later after

end Forest

mutual

def Node.levels : Node → Nat
  | .condition _ => 0
  | .group ⟨_, _, children⟩ => Forest.levels children + 1

/-- How many groups of the forest stand one below the other at most. -/
def Forest.levels : List Node → Nat
  | [] => 0
  | n :: rest => max n.levels (Forest.levels rest)

end

namespace Forest

theorem levels_group (g : Group) (rest : Forest) :
    levels (.group g :: rest) = max (levels g.children + 1) (levels rest) := rfl

theorem Tiered.levels_le {n : Nat} {f : Forest} (tiered : Tiered n f) : levels f ≤ n := by
  induction f using Forest.induct generalizing n with
  | nil => exact Nat.zero_le n
  | condition c rest ih =>
    exact Nat.max_le.mpr ⟨Nat.zero_le n, ih (tiered_condition.mp tiered)⟩
  | group g rest ihg ih =>
    cases n with
    | zero => exact absurd tiered not_tiered_zero
    | succ n =>
      obtain ⟨below, _, later⟩ := tiered_group.mp tiered
      rw [levels_group]
      exact Nat.max_le.mpr ⟨Nat.succ_le_succ (ihg below), ih later⟩

end Forest

namespace Draft

variable {document : Model → Prop}

theorem tiered_perform {d : Draft} {a : Action} (kept : a.isReplace = false)
    (tiered : Forest.Tiered 2 d.model.forest) : Forest.Tiered 2 (d.perform a).1.model.forest := by
  rcases next_perform d kept with same | step
  · rwa [same]
  · exact Forest.tiered_of_step step tiered

theorem tiered_of_run {d e : Draft} {actions : List Action}
    (tiered : Forest.Tiered 2 d.model.forest) (kept : ∀ a ∈ actions, a.isReplace = false)
    (run : d.Run document actions e) : Forest.Tiered 2 e.model.forest :=
  run.preserves (P := fun d => Forest.Tiered 2 d.model.forest) tiered fun _ a mem _ =>
    tiered_perform (kept a mem)

/-- **Two tiers of groups.** Whatever is done to a draft that begins blank, in any order and with any
arguments, as long as no other model is put in its place: every OR group, be it a root or not, holds
conditions only, and so does every group that stands in a root. So there are never three groups one
below the other, and never an AND group below an OR group. -/
theorem run_tiers {table : String} {supply : Supply} {actions : List Action} {e : Draft}
    (kept : ∀ a ∈ actions, a.isReplace = false) (run : (start table supply).Run document actions e) :
    (∀ g ∈ e.model.groups, g.kind = .or → Forest.OnlyConditions g.children) ∧
      (∀ root ∈ e.model.roots, ∀ g, .group g ∈ root.children → Forest.OnlyConditions g.children) ∧
      Forest.levels e.model.forest ≤ 2 ∧
      ∀ g ∈ e.model.groups, g.kind = .or → ∀ k ∈ Forest.groups g.children, k.kind ≠ .and := by
  have tiered := tiered_of_run Forest.tiered_blank kept run
  refine ⟨fun g => tiered.onlyConditions, ?_, tiered.levels_le, ?_⟩
  · intro root mem g held
    have below := (tiered root (List.mem_map_of_mem mem)).1
    exact (below g held).1
  · intro g mem or k below
    rw [Forest.groups_eq_nil (tiered.onlyConditions mem or)] at below
    cases below

/-- A root that is an OR group after a split, and one in a root beside an AND group. -/
theorem run_tiers_split :
    let actions : List Action :=
      [.add ⟨"r"⟩, .split ⟨"r"⟩ ⟨"c+"⟩, .addAfter ⟨"g"⟩, .split ⟨"g"⟩ ⟨"c"⟩]
    ∃ e, (∀ a ∈ actions, a.isReplace = false) ∧
      (start "incident" tally).Run Model.Accepted actions e ∧
      e.model.groups.map (fun g => (g.id.text, g.kind)) =
        [("r", .and), ("g++++", .or), ("g+++", .and), ("g++", .or)] ∧
      e.model.roots.map (·.id.text) = ["r", "g++"] ∧
      (∀ g ∈ e.model.groups, g.kind = .or → Forest.OnlyConditions g.children) ∧
      Forest.levels e.model.forest ≤ 2 := by
  intro actions
  have kept : ∀ a ∈ actions, a.isReplace = false := by decide
  have run : (start "incident" tally).Run Model.Accepted actions _ :=
    .cons trivial (.cons trivial (.cons trivial (.cons trivial (.nil _))))
  obtain ⟨or, _, levels, _⟩ := run_tiers kept run
  exact ⟨_, kept, run, by decide, by decide, or, levels⟩

end Draft

end FilterTree

import FilterTree.Proofs.Acceptance

namespace FilterTree

mutual

def Node.nodes : Node → List Node
  | .condition c => [.condition c]
  | .group ⟨id, kind, children⟩ => .group ⟨id, kind, children⟩ :: Forest.nodes children

/-- The nodes of the forest, each before those below it. -/
def Forest.nodes : List Node → List Node
  | [] => []
  | n :: rest => n.nodes ++ Forest.nodes rest

end

def Node.childless (n : Node) : Bool := n.group?.any (·.children.isEmpty)

mutual

def Node.check (met : List NodeId) : Node → Except Model.Flaw (List NodeId)
  | .condition c => if c.id ∈ met then .error (.repeatedId c.id) else .ok (c.id :: met)
  | .group ⟨id, _, children⟩ =>
    if id ∈ met then .error (.repeatedId id)
    else if children.isEmpty then .error (.emptyGroup id)
    else Forest.check (id :: met) children

/-- The identifiers met up to the end of the forest, if nothing is wrong in it. -/
def Forest.check (met : List NodeId) : List Node → Except Model.Flaw (List NodeId)
  | [] => .ok met
  | n :: rest => (n.check met).bind fun met => Forest.check met rest

end

namespace Forest

@[simp] theorem nodes_nil : nodes [] = [] := rfl

@[simp] theorem nodes_condition (c : Condition) (rest : Forest) :
    nodes (.condition c :: rest) = .condition c :: nodes rest := rfl

@[simp] theorem nodes_group (g : Group) (rest : Forest) :
    nodes (.group g :: rest) = .group g :: (nodes g.children ++ nodes rest) := rfl

theorem visits_eq_map (f : Forest) : visits f = (nodes f).map fun n => (n.id, n.childless) := by
  induction f using induct with
  | nil => rfl
  | condition c rest ih => simp [ih, Node.id, Node.childless, Node.group?]
  | group g rest ihg ih => simp [ihg, ih, Node.id, Node.childless, Node.group?]

/-! ## The first offence -/

/-- This is wrong with the node after the nodes `before`: one of them has its identifier, or none has and
it is a group without children. -/
inductive Offends (before : List Node) : Node → Model.Flaw → Prop where
  | repeated {n : Node} (met : n.id ∈ before.map Node.id) : Offends before n (.repeatedId n.id)
  | empty {g : Group} (new : g.id ∉ before.map Node.id) (childless : g.children = []) :
      Offends before (.group g) (.emptyGroup g.id)

/-- Nothing is wrong with any node of the list after the nodes `prior` and those before it. -/
def Clean (prior nodes : List Node) : Prop :=
  ∀ before n after, nodes = before ++ n :: after → ∀ flaw, ¬ Offends (prior ++ before) n flaw

/-- The flaw is what is wrong with the first node of the list with which anything is wrong, after the
nodes `prior` and those before it. -/
def FirstOffence (prior nodes : List Node) (flaw : Model.Flaw) : Prop :=
  ∃ before n after, nodes = before ++ n :: after ∧ Offends (prior ++ before) n flaw ∧
    Clean prior before

section
variable {prior : List Node} {n : Node} {flaw : Model.Flaw}

theorem offends_iff :
    Offends prior n flaw ↔
      n.id ∈ prior.map Node.id ∧ flaw = .repeatedId n.id ∨
        n.id ∉ prior.map Node.id ∧ n.childless = true ∧ flaw = .emptyGroup n.id := by
  constructor
  · rintro (met | ⟨new, childless⟩)
    · exact .inl ⟨met, rfl⟩
    · exact .inr ⟨new, by simp [Node.childless, Node.group?, childless], rfl⟩
  · rintro (⟨met, rfl⟩ | ⟨new, childless, rfl⟩)
    · exact .repeated met
    · cases n with
      | condition c => cases childless
      | group g => exact .empty new (by simpa [Node.childless, Node.group?] using childless)

theorem Offends.unique {flaw' : Model.Flaw} (h : Offends prior n flaw) (h' : Offends prior n flaw') :
    flaw = flaw' := by
  rcases offends_iff.mp h with ⟨met, rfl⟩ | ⟨new, _, rfl⟩ <;>
    rcases offends_iff.mp h' with ⟨met', rfl⟩ | ⟨new', _, rfl⟩
  · rfl
  · exact absurd met new'
  · exact absurd met' new
  · rfl

theorem clean_nil : Clean prior [] := by
  intro before n after split
  exact absurd split (by simp)

theorem not_firstOffence_nil : ¬ FirstOffence prior [] flaw := by
  rintro ⟨before, n, after, split, _⟩
  exact absurd split (by simp)

theorem clean_cons {nodes : List Node} :
    Clean prior (n :: nodes) ↔ (∀ flaw, ¬ Offends prior n flaw) ∧ Clean (prior ++ [n]) nodes := by
  constructor
  · intro clean
    refine ⟨fun flaw => ?_, fun before k after split flaw => ?_⟩
    · simpa using clean [] n nodes rfl flaw
    · simpa using clean (n :: before) k after (by rw [split, List.cons_append]) flaw
  · rintro ⟨first, later⟩ before k after split flaw
    rcases List.cons_eq_append_iff.mp split with ⟨rfl, same⟩ | ⟨front, rfl, rest⟩
    · cases same
      simpa using first flaw
    · simpa using later front k after rest flaw

/-- Either something is wrong with the first node, or nothing is and the first offence comes after
it. -/
theorem firstOffence_cons {nodes : List Node} :
    FirstOffence prior (n :: nodes) flaw ↔
      Offends prior n flaw ∨
        (∀ flaw, ¬ Offends prior n flaw) ∧ FirstOffence (prior ++ [n]) nodes flaw := by
  constructor
  · rintro ⟨before, k, after, split, offends, clean⟩
    rcases List.cons_eq_append_iff.mp split with ⟨rfl, same⟩ | ⟨front, rfl, rest⟩
    · cases same
      exact .inl (by simpa using offends)
    · obtain ⟨first, later⟩ := clean_cons.mp clean
      exact .inr ⟨first, front, k, after, rest, by simpa using offends, later⟩
  · rintro (offends | ⟨first, before, k, after, rfl, offends, clean⟩)
    · exact ⟨[], n, nodes, rfl, by simpa using offends, clean_nil⟩
    · exact ⟨n :: before, k, after, rfl, by simpa using offends, clean_cons.mpr ⟨first, clean⟩⟩

theorem firstOffence_of_offends {first : Model.Flaw} (h : Offends prior n first) (nodes : List Node) :
    FirstOffence prior (n :: nodes) flaw ↔ first = flaw := by
  rw [firstOffence_cons]
  constructor
  · rintro (offends | ⟨harmless, _⟩)
    · exact h.unique offends
    · exact absurd h (harmless first)
  · rintro rfl
    exact .inl h

end

/-- The scan finds the first offence. Which identifiers were met matters, and not in which order. -/
theorem firstFlaw?_eq_some_iff {met : List NodeId} {prior nodes : List Node} {flaw : Model.Flaw}
    (agree : ∀ id, id ∈ met ↔ id ∈ prior.map Node.id) :
    firstFlaw? met (nodes.map fun n => (n.id, n.childless)) = some flaw ↔
      FirstOffence prior nodes flaw := by
  induction nodes generalizing met prior with
  | nil => exact iff_of_false nofun not_firstOffence_nil
  | cons n rest ih =>
    rw [List.map_cons, firstFlaw?]
    split
    · rename_i again
      have offends : Offends prior n (.repeatedId n.id) := .repeated ((agree n.id).mp again)
      rw [firstOffence_of_offends offends, Option.some_inj]
    · rename_i first
      have new := mt (agree n.id).mpr first
      split
      · rename_i childless
        have offends : Offends prior n (.emptyGroup n.id) :=
          offends_iff.mpr (.inr ⟨new, childless, rfl⟩)
        rw [firstOffence_of_offends offends, Option.some_inj]
      · rename_i inhabited
        have harmless (flaw : Model.Flaw) : ¬ Offends prior n flaw := by
          rw [offends_iff]
          rintro (⟨met, _⟩ | ⟨_, childless, _⟩)
          · exact new met
          · exact inhabited childless
        have agree' (id : NodeId) : id ∈ n.id :: met ↔ id ∈ (prior ++ [n]).map Node.id := by
          rw [List.mem_cons, agree, List.map_append, List.mem_append, List.map_singleton,
            List.mem_singleton, or_comm]
        rw [ih agree', firstOffence_cons]
        simp [harmless]

/-! ## The walk -/

theorem firstFlaw?_append (met : List NodeId) (a b : List (NodeId × Bool)) :
    firstFlaw? met (a ++ b) =
      (firstFlaw? met a).or (firstFlaw? ((a.map Prod.fst).reverse ++ met) b) := by
  induction a generalizing met with
  | nil => rfl
  | cons v rest ih =>
    obtain ⟨id, childless⟩ := v
    simp only [List.cons_append, firstFlaw?, ih]
    split
    · rfl
    · split
      · rfl
      · simp

/-- The walk reports what the scan finds, and has met all identifiers if that is nothing. -/
theorem check_eq (met : List NodeId) (f : Forest) :
    check met f = (firstFlaw? met (visits f)).elim (.ok ((ids f).reverse ++ met)) .error := by
  induction f using induct generalizing met with
  | nil => rfl
  | condition c rest ih =>
    rw [visits_condition, firstFlaw?, check, Node.check]
    split
    · rfl
    · show check (c.id :: met) rest = _
      rw [ih]
      simp
  | group g rest ihg ih =>
    rw [visits_group, firstFlaw?, check, Node.check]
    split
    · rfl
    · split
      · rfl
      · rw [firstFlaw?_append, map_fst_visits, ihg]
        cases firstFlaw? (g.id :: met) (visits g.children) with
        | some flaw => rfl
        | none =>
          show check ((ids g.children).reverse ++ g.id :: met) rest = _
          rw [ih]
          simp

end Forest

namespace Model

/-- The check is one walk of the roots and what is below them. -/
theorem ofRoots?_eq_check (roots : List Group) :
    ofRoots? roots =
      if roots = [] then .error .noRoots
      else (Forest.check [] (roots.map .group)).map fun _ => ⟨roots⟩ := by
  unfold ofRoots?
  rw [Forest.check_eq]
  cases roots with
  | nil => rfl
  | cons g rest =>
    cases Forest.firstFlaw? [] (Forest.visits ((g :: rest).map .group)) with
    | none => rfl
    | some flaw => rfl

/-- **What is accepted, and what is reported of the rest.** Root groups are accepted, as they are, exactly
if there is one, every group at any depth has a child, and all identifiers of groups and conditions differ.
What is reported otherwise is that there is none, or the first offence in preorder. -/
theorem ofRoots?_iff (roots : List Group) :
    (∀ m, ofRoots? roots = .ok m ↔
        m.roots = roots ∧ roots ≠ [] ∧ (∀ g ∈ m.groups, g.children ≠ []) ∧ m.ids.Nodup) ∧
      ∀ flaw, ofRoots? roots = .error flaw ↔
        roots = [] ∧ flaw = .noRoots ∨
          Forest.FirstOffence [] (Forest.nodes (roots.map .group)) flaw := by
  constructor
  · intro m
    rw [ofRoots?_eq_ok_iff]
    constructor
    · rintro ⟨rfl, valid⟩
      exact ⟨rfl, valid.roots_ne_nil, valid.children_ne_nil, valid.nodup_ids⟩
    · rintro ⟨rfl, rooted, full, nodup⟩
      exact ⟨rfl, rooted, full, nodup⟩
  · intro flaw
    have scan : Forest.firstFlaw? [] (Forest.visits (roots.map .group)) = some flaw ↔
        Forest.FirstOffence [] (Forest.nodes (roots.map .group)) flaw := by
      rw [Forest.visits_eq_map]
      exact Forest.firstFlaw?_eq_some_iff fun _ => .rfl
    rw [← scan]
    unfold ofRoots?
    cases roots with
    | nil => simp [Forest.firstFlaw?, eq_comm]
    | cons g rest =>
      simp only [List.isEmpty_cons, Bool.false_eq_true, ↓reduceIte, reduceCtorEq, false_and, false_or]
      cases Forest.firstFlaw? [] (Forest.visits ((g :: rest).map .group)) with
      | none => simp
      | some first => simp

/-- The childless group comes before the identifier that is there twice. -/
example :
    let twice : Node := .condition { id := ⟨"c"⟩ }
    ofRoots? [⟨⟨"a"⟩, .and, [twice, .group ⟨⟨"b"⟩, .or, []⟩, twice]⟩] =
      .error (.emptyGroup ⟨"b"⟩) := rfl

end Model

end FilterTree

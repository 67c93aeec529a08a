import FilterTree.Document.Model
import FilterTree.Proofs.Row

namespace FilterTree

namespace Forest

theorem map_fst_visits (f : Forest) : (visits f).map Prod.fst = ids f := by
  induction f using induct with
  | nil => rfl
  | condition c rest ih => simp [ih]
  | group g rest ihg ih => simp [ihg, ih]

theorem full_iff_visits (f : Forest) : Full f ↔ ∀ v ∈ visits f, v.2 = false := by
  induction f using induct with
  | nil => simp
  | condition c rest ih => simp [ih]
  | group g rest ihg ih =>
    simp only [full_group, ihg, ih, visits_group, List.forall_mem_cons, List.forall_mem_append,
      List.isEmpty_eq_false_iff]

theorem firstFlaw?_eq_none_iff (seen : List NodeId) (visits : List (NodeId × Bool)) :
    firstFlaw? seen visits = none ↔
      (visits.map Prod.fst).Nodup ∧ (∀ v ∈ visits, v.1 ∉ seen) ∧ ∀ v ∈ visits, v.2 = false := by
  induction visits generalizing seen with
  | nil => simp [firstFlaw?]
  | cons v rest ih =>
    obtain ⟨id, childless⟩ := v
    by_cases met : id ∈ seen
    · simp [firstFlaw?, met]
    cases childless with
    | true => simp [firstFlaw?, met]
    | false =>
      rw [List.forall_mem_cons, List.forall_mem_cons, List.map_cons, List.nodup_cons]
      simp only [firstFlaw?, met, ↓reduceIte, Bool.false_eq_true, ih, List.mem_cons, not_or,
        not_false_eq_true, true_and]
      constructor
      · rintro ⟨nodup, unmet, inhabited⟩
        refine ⟨⟨?_, nodup⟩, fun v hv => (unmet v hv).2, inhabited⟩
        intro again
        obtain ⟨v, hv, same⟩ := List.mem_map.mp again
        exact (unmet v hv).1 same
      · rintro ⟨⟨once, nodup⟩, unmet, inhabited⟩
        refine ⟨nodup, fun v hv => ⟨?_, unmet v hv⟩, inhabited⟩
        intro same
        exact once (List.mem_map.mpr ⟨v, hv, same⟩)

end Forest

namespace Model

theorem valid_iff {m : Model} :
    m.Valid ↔ m.forest ≠ [] ∧ Forest.Full m.forest ∧ (Forest.ids m.forest).Nodup := by
  constructor
  · rintro ⟨roots, full, nodup⟩
    exact ⟨fun h => roots (forest_eq_nil.mp h), full, nodup⟩
  · rintro ⟨roots, full, nodup⟩
    exact ⟨fun h => roots (forest_eq_nil.mpr h), full, nodup⟩

theorem ofRoots?_eq_ok_iff {roots : List Group} {m : Model} :
    ofRoots? roots = .ok m ↔ m = ⟨roots⟩ ∧ m.Valid := by
  have scan : Forest.firstFlaw? [] (Forest.visits (roots.map .group)) = none ↔
      (Forest.ids (roots.map .group)).Nodup ∧ Forest.Full (roots.map .group) := by
    rw [Forest.firstFlaw?_eq_none_iff, Forest.map_fst_visits, Forest.full_iff_visits]
    simp
  unfold ofRoots?
  cases roots with
  | nil =>
    constructor
    · intro h; cases h
    · rintro ⟨rfl, valid⟩; exact absurd rfl valid.roots_ne_nil
  | cons g rest =>
    simp only [List.isEmpty_cons, Bool.false_eq_true, ↓reduceIte]
    constructor
    · intro h
      split at h
      · cases h
      · rename_i unflawed
        cases h
        obtain ⟨nodup, full⟩ := scan.mp unflawed
        exact ⟨rfl, valid_iff.mpr ⟨nofun, full, nodup⟩⟩
    · rintro ⟨rfl, valid⟩
      rw [scan.mpr ⟨valid.nodup_ids, valid.children_ne_nil⟩]

/-- The roots of the model pass the check for models that come from outside. -/
def Accepted (m : Model) : Prop := ofRoots? m.roots = .ok m

theorem accepted_iff_valid {m : Model} : m.Accepted ↔ m.Valid := by
  unfold Accepted
  rw [ofRoots?_eq_ok_iff]
  exact and_iff_right rfl

theorem checked?_eq_ok_iff {roots : List Group} {m : Model} :
    checked? roots = .ok m ↔ roots = m.roots ∧ m.Accepted := by
  unfold checked?
  cases found : ofRoots? roots with
  | error flaw =>
    refine iff_of_false nofun ?_
    rintro ⟨rfl, accepted⟩
    cases found.symm.trans accepted
  | ok k =>
    obtain ⟨rfl, valid⟩ := ofRoots?_eq_ok_iff.mp found
    constructor
    · intro h
      cases h
      exact ⟨rfl, found⟩
    · rintro ⟨rfl, _⟩
      rfl

/-- The roots of a model that was read from a document were read from a value, and were accepted. -/
theorem read_of_ofDocument? {text : String} {m : Model} (h : ofDocument? text = .ok m) :
    ∃ j, rootsOfJson? j = some m.roots ∧ m.Accepted := by
  unfold ofDocument? at h
  split at h
  · cases h
  · rename_i read
    obtain ⟨j, _, made⟩ := Option.bind_eq_some_iff.mp read
    obtain ⟨rfl, accepted⟩ := checked?_eq_ok_iff.mp h
    exact ⟨j, made, accepted⟩

theorem read_of_ofStream? {text : String} {m : Model} (h : ofStream? text = .ok m) :
    ∃ j, rootsOfJson? j = some m.roots ∧ m.Accepted := by
  unfold ofStream? at h
  split at h
  · cases h
  · rename_i j _ _
    split at h
    · cases h
    · rename_i roots made
      cases found : checked? roots with
      | error e => simp [found, bind, Except.bind] at h
      | ok k =>
        simp only [found, bind, Except.bind] at h
        split at h
        · cases h
          obtain ⟨rfl, accepted⟩ := checked?_eq_ok_iff.mp found
          exact ⟨j, made, accepted⟩
        · cases h

end Model

end FilterTree

import FilterTree.Proofs.Joining
import FilterTree.Proofs.Lookup
import FilterTree.Trail

namespace FilterTree

/-- What stands in the query for a join. -/
def Join.separator : Join → String
  | .and => "^"
  | .or => "^OR"
  | .newQuery => "^NQ"

/-- What stands before a leaf that is joined so, and nothing if it is not joined at all. -/
def Join.opening (join : Option Join) : String := join.elim "" separator

theorem Join.opening_kind (kind : Kind) : opening (some kind.join) = kind.separator := by
  cases kind <;> rfl

namespace Forest

/-- The predicates of the leaves one after the other, each after what joins it. -/
def recital (leaves : List (Option Join × Condition)) : String :=
  String.join (leaves.map fun (join, c) => Join.opening join ++ c.predicate)

section
variable {later first : Option Join}

theorem joined_cons (n : Node) (rest : Forest) :
    joined later first (n :: rest) = n.joined first ++ joined later later rest := rfl

theorem joined_condition (c : Condition) (rest : Forest) :
    joined later first (.condition c :: rest) = (first, c) :: joined later later rest := rfl

theorem joined_group (g : Group) (rest : Forest) :
    joined later first (.group g :: rest) =
      joined (some g.kind.join) first g.children ++ joined later later rest := rfl

/-- The leaves that are joined are the leaves, in their order. -/
theorem map_snd_joined (later first : Option Join) (f : Forest) :
    (joined later first f).map Prod.snd = leaves f := by
  induction f using induct generalizing later first with
  | nil => rfl
  | condition c rest ih => rw [joined_condition, List.map_cons, ih, leaves_condition]
  | group g rest ihg ih => rw [joined_group, List.map_append, ihg, ih, leaves_group]

theorem length_joined (later first : Option Join) (f : Forest) :
    (joined later first f).length = leafCount f := by
  rw [← List.length_map Prod.snd, map_snd_joined, length_leaves]

theorem join_ne_none {f : Forest} (hl : later ≠ none) (hf : first ≠ none) :
    ∀ x ∈ joined later first f, x.1 ≠ none := by
  induction f using induct generalizing later first with
  | nil => nofun
  | condition c rest ih =>
    rw [joined_condition, List.forall_mem_cons]
    exact ⟨hf, ih hl hl⟩
  | group g rest ihg ih =>
    rw [joined_group, List.forall_mem_append]
    exact ⟨ihg nofun hf, ih hl hl⟩

/-- In a full row just the first leaf takes over the join that is handed down to the row. -/
theorem joined_eq_cons (first : Option Join) {f : Forest} (full : Full f) (ne : f ≠ [])
    (hl : later ≠ none) :
    ∃ c more, joined later first f = (first, c) :: more ∧ ∀ x ∈ more, x.1 ≠ none := by
  induction f using induct generalizing later first with
  | nil => exact absurd rfl ne
  | condition c rest _ => exact ⟨c, _, joined_condition c rest, join_ne_none hl hl⟩
  | group g rest ihg _ =>
    obtain ⟨inhabited, below, _⟩ := (full_group g rest).mp full
    have linked : some g.kind.join ≠ none := nofun
    obtain ⟨c, more, inner, others⟩ := ihg first below inhabited linked
    refine ⟨c, more ++ joined later later rest, by rw [joined_group, inner]; rfl, ?_⟩
    rw [List.forall_mem_append]
    exact ⟨others, join_ne_none hl hl⟩

theorem recital_append (xs ys : List (Option Join × Condition)) :
    recital (xs ++ ys) = recital xs ++ recital ys := by
  simp [recital]

theorem text_ne_empty {f : Forest} (full : Full f) (complete : ∀ c ∈ leaves f, c.isComplete = true)
    (ne : f ≠ []) (separator : String) : text separator f ≠ "" := by
  intro empty
  have shown := leafCount_pos full ne
  rw [← length_leaves] at shown
  obtain ⟨c, mem⟩ := List.exists_mem_of_length_pos shown
  have := text_eq_empty_iff.mp empty c mem
  rw [complete c mem] at this
  cases this

/-- What is recited of a row is what is recited of its first node and then of the rest, and so is its
text. -/
theorem recital_cons {n : Node} {rest : Forest}
    (here : recital (n.joined first) = Join.opening first ++ n.encode) (shows : n.encode ≠ "")
    (there : rest ≠ [] →
      recital (joined later later rest) = Join.opening later ++ text (Join.opening later) rest)
    (more : rest ≠ [] → text (Join.opening later) rest ≠ "") :
    recital (joined later first (n :: rest)) =
      Join.opening first ++ text (Join.opening later) (n :: rest) := by
  rw [joined_cons, recital_append, here, text_cons]
  by_cases ne : rest = []
  · subst ne
    simp [joined, recital]
  · rw [there ne, Text.glue_of_ne shows (more ne)]
    simp only [String.append_assoc]

/-- What is recited of a full row of complete conditions is its text, after what joins its first
leaf. -/
theorem recital_joined (later first : Option Join) {f : Forest} (full : Full f)
    (complete : ∀ c ∈ leaves f, c.isComplete = true) (ne : f ≠ []) :
    recital (joined later first f) = Join.opening first ++ text (Join.opening later) f := by
  induction f using induct generalizing later first with
  | nil => exact absurd rfl ne
  | condition c rest ih =>
    rw [leaves_condition, List.forall_mem_cons] at complete
    have encode : c.encode = c.predicate := by simp [Condition.encode, complete.1]
    have full : Full rest := (full_condition c rest).mp full
    refine recital_cons ?_ ?_ (ih later later full complete.2) (text_ne_empty full complete.2 · _)
    · simp [Node.joined, Node.encode, recital, encode]
    · show c.encode ≠ ""
      simp [Condition.encode_eq_empty_iff, complete.1]
  | group g rest ihg ih =>
    obtain ⟨inhabited, below, full⟩ := (full_group g rest).mp full
    rw [leaves_group, List.forall_mem_append] at complete
    have inner := ihg (some g.kind.join) first below complete.1 inhabited
    rw [Join.opening_kind] at inner
    exact recital_cons inner (text_ne_empty below complete.1 inhabited _)
      (ih later later full complete.2) (text_ne_empty full complete.2 · _)

theorem ids_leaves_sublist (f : Forest) : ((leaves f).map (·.id)).Sublist (ids f) := by
  induction f using induct with
  | nil => exact .slnil
  | condition c rest ih => exact ih.cons_cons c.id
  | group g rest ihg ih =>
    rw [leaves_group, List.map_append, ids_group]
    exact (ihg.append ih).cons g.id

end

end Forest

namespace Model

/-- The leaves with their joins, root after root. -/
def joined (m : Model) : List (Option Join × Condition) :=
  Forest.joined (some .newQuery) none m.forest

/-- The condition with the identifier, wherever it stands. -/
def leaf? (m : Model) (id : NodeId) : Option Condition := m.leaves.find? (·.id = id)

/-- What a crumb stands for in the query: what joins it, and the predicate of its condition. -/
def recite? (m : Model) (crumb : Crumb) : Option String :=
  (m.leaf? crumb.id).map fun c => Join.opening crumb.join ++ (c.field ++ c.operator ++ c.value)

theorem map_groupTrail (root : Nat) (first : Option Join) (g : Group) :
    (Group.trail root first g).map (fun crumb => (crumb.join, crumb.id)) =
      ((Node.group g).joined first).map fun (join, c) => (join, c.id) := by
  apply List.ext_getElem?
  intro i
  simp only [Group.trail, List.getElem?_map, List.getElem?_mapIdx, Option.map_map]
  rfl

/-- In a row of roots that are all joined by `join`, the crumbs have the joins of the row. -/
theorem map_flatten_trail (number : Nat → Nat) (join : Option Join) (roots : List Group) :
    (roots.mapIdx fun i g => Group.trail (number i) join g).flatten.map
        (fun crumb => (crumb.join, crumb.id)) =
      (Forest.joined join join (roots.map .group)).map fun (join, c) => (join, c.id) := by
  induction roots generalizing number with
  | nil => rfl
  | cons g rest ih =>
    rw [List.mapIdx_cons, List.flatten_cons, List.map_append, map_groupTrail,
      ih fun i => number (i + 1), List.map_cons, Forest.joined_cons, List.map_append]

/-- The crumbs of a model name its leaves in order and have their joins. -/
theorem map_trail (m : Model) :
    m.trail.map (fun crumb => (crumb.join, crumb.id)) =
      m.joined.map fun (join, c) => (join, c.id) := by
  obtain ⟨roots⟩ := m
  cases roots with
  | nil => rfl
  | cons g rest =>
    have later := map_flatten_trail (· + 1) (some .newQuery) rest
    simp only [trail, joined, forest, List.mapIdx_cons, ↓reduceIte, Nat.add_eq_zero_iff,
      Nat.one_ne_zero, and_false, List.flatten_cons, List.map_append, List.map_cons,
      Forest.joined_cons, map_groupTrail, later]

theorem map_snd_joined (m : Model) : m.joined.map Prod.snd = m.leaves :=
  Forest.map_snd_joined (some .newQuery) none m.forest

theorem map_join_trail (m : Model) : m.trail.map (·.join) = m.joined.map Prod.fst := by
  have joins := congrArg (List.map Prod.fst) m.map_trail
  rwa [List.map_map, List.map_map] at joins

/-- The crumbs have the identifiers of the leaves. -/
theorem map_id_trail (m : Model) : m.trail.map (·.id) = m.leaves.map (·.id) := by
  have ids := congrArg (List.map Prod.snd) m.map_trail
  rw [List.map_map, List.map_map] at ids
  rw [← map_snd_joined, List.map_map]
  exact ids

theorem nodup_leaves {m : Model} (valid : m.Valid) : (m.leaves.map (·.id)).Nodup :=
  valid.nodup_ids.sublist (Forest.ids_leaves_sublist m.forest)

theorem leaf?_of_mem {m : Model} (valid : m.Valid) {c : Condition} (mem : c ∈ m.leaves) :
    m.leaf? c.id = some c :=
  find?_key (nodup_leaves valid) mem

theorem complete_of_query? {m : Model} {query : String} (h : m.query? = some query) :
    ∀ c ∈ m.leaves, c.isComplete = true := by
  unfold query? at h
  split at h
  · rename_i all
    exact List.all_eq_true.mp all
  · cases h

/-- The text of complete conditions is recited leaf by leaf, if every group has a child. -/
theorem encode_eq_recital {m : Model} (ne : m.forest ≠ []) (full : Forest.Full m.forest)
    (complete : ∀ c ∈ m.leaves, c.isComplete = true) : m.encode = Forest.recital m.joined := by
  have text := Forest.recital_joined (some .newQuery) none full complete ne
  rw [encode_eq_text]
  exact (text.trans String.empty_append).symm

/-- The query of a valid model is recited leaf by leaf. -/
theorem query?_of_complete {m : Model} (valid : m.Valid)
    (complete : ∀ c ∈ m.leaves, c.isComplete = true) :
    m.query? = some (Forest.recital m.joined) := by
  obtain ⟨ne, full, _⟩ := valid_iff.mp valid
  have all : m.leaves.all Condition.isComplete = true := List.all_eq_true.mpr complete
  rw [query?, if_pos all, encode_eq_recital ne full complete]

/-- **The trail recites the query.** In a model that is accepted and in which every condition is
complete, each crumb stands for a part of the query, and the query is these parts in a row. Just the
first crumb has no join. -/
theorem query?_eq_recital {m : Model} (accepted : m.Accepted)
    (complete : ∀ c ∈ m.leaves, c.isComplete = true) :
    (∃ parts, m.trail.map m.recite? = parts.map some ∧ m.query? = some (String.join parts)) ∧
      m.trail ≠ [] ∧ ∀ i crumb, m.trail[i]? = some crumb → (crumb.join = none ↔ i = 0) := by
  have valid := accepted_iff_valid.mp accepted
  obtain ⟨ne, full, _⟩ := valid_iff.mp valid
  refine ⟨⟨m.joined.map fun (join, c) => Join.opening join ++ c.predicate, ?_, ?_⟩, ?_⟩
  · have parts : ∀ x ∈ m.joined, (m.leaf? x.2.id).map (fun c => Join.opening x.1 ++ c.predicate) =
        some (Join.opening x.1 ++ x.2.predicate) := by
      intro x hx
      have mem : x.2 ∈ m.leaves := by
        rw [leaves, ← Forest.map_snd_joined (some .newQuery) none]
        exact List.mem_map_of_mem hx
      rw [leaf?_of_mem valid mem, Option.map_some]
    have crumbs := congrArg (List.map fun (x : Option Join × NodeId) =>
      (m.leaf? x.2).map fun c => Join.opening x.1 ++ c.predicate) m.map_trail
    rw [List.map_map, List.map_map] at crumbs
    rw [List.map_map]
    exact crumbs.trans (List.map_congr_left parts)
  · exact query?_of_complete valid complete
  · have linked : some Join.newQuery ≠ none := nofun
    obtain ⟨c, more, first, others⟩ := Forest.joined_eq_cons none full ne linked
    have joins : m.trail.map (·.join) = none :: more.map Prod.fst := by
      have := congrArg (List.map Prod.fst) m.map_trail
      rw [List.map_map, List.map_map, joined, first] at this
      exact this
    refine ⟨fun empty => by simp [empty] at joins, ?_⟩
    intro i crumb found
    have here : (none :: more.map Prod.fst)[i]? = some crumb.join := by
      rw [← joins, List.getElem?_map, found, Option.map_some]
    cases i with
    | zero =>
      rw [List.getElem?_cons_zero, Option.some_inj] at here
      exact iff_of_true here.symm rfl
    | succ i =>
      rw [List.getElem?_cons_succ, List.getElem?_map, Option.map_eq_some_iff] at here
      obtain ⟨x, found, join⟩ := here
      rw [← join]
      exact iff_of_false (others x (List.mem_of_getElem? found)) (Nat.succ_ne_zero i)

/-- Two queries, with groups that begin and end deep inside others. -/
def branching : Model :=
  let term (id : String) : Node :=
    .condition { id := ⟨id⟩, field := id, operator := "=", value := "1" }
  let group (id : String) (kind : Kind) (children : Forest) : Group := ⟨⟨id⟩, kind, children⟩
  ⟨[group "one" .and
      [.group (group "two" .or [.group (group "three" .and [term "a", term "b"]), term "c"]),
        term "d"],
    group "four" .or [.group (group "five" .and [term "e"]), term "f"]]⟩

/-- Both first leaves take over their joins through two groups. -/
theorem query?_eq_recital_branching :
    branching.Accepted ∧ (∀ c ∈ branching.leaves, c.isComplete = true) ∧
      (∃ parts, branching.trail.map branching.recite? = parts.map some ∧
        branching.query? = some (String.join parts)) ∧
      branching.query? = some "a=1^b=1^ORc=1^d=1^NQe=1^ORf=1" := by
  have accepted : branching.Accepted := rfl
  have complete : ∀ c ∈ branching.leaves, c.isComplete = true := by decide
  exact ⟨accepted, complete, (query?_eq_recital accepted complete).1, rfl⟩

end Model

end FilterTree

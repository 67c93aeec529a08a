import FilterTree.Proofs.Recital

/-!
# Reading a query back

Nothing is escaped in a query. A caret ends a predicate, and what comes next is the name of a join
or the next predicate. So a query can be read back if no text holds a caret, and no predicate after
a bare caret looks like a named join with a predicate.
-/

namespace FilterTree

/-- The condition has a caret in none of the texts that a query is made of. -/
def Condition.Plain (c : Condition) : Prop :=
  ∀ text ∈ [c.field, c.operator, c.value], '^' ∉ text.toList

instance (c : Condition) : Decidable c.Plain :=
  inferInstanceAs (Decidable (∀ text ∈ [c.field, c.operator, c.value], '^' ∉ text.toList))

theorem Condition.caret_not_mem_predicate {c : Condition} (plain : c.Plain) :
    '^' ∉ c.predicate.toList := by
  simpa [predicate, Plain] using plain

/-- A field and an operator make two characters. -/
theorem Condition.exists_toList_predicate {c : Condition} (complete : c.isComplete = true) :
    ∃ a b rest, c.predicate.toList = a :: b :: rest := by
  obtain ⟨field, operator⟩ := isComplete_iff.mp complete
  obtain ⟨a, more, here⟩ := List.exists_cons_of_ne_nil (mt String.toList_eq_nil_iff.mp field)
  obtain ⟨b, rest, there⟩ := List.exists_cons_of_ne_nil (mt String.toList_eq_nil_iff.mp operator)
  simp only [predicate, String.toList_append, here, there, List.cons_append]
  cases more with
  | nil => exact ⟨a, b, _, rfl⟩
  | cons d more => exact ⟨a, d, _, rfl⟩

namespace Query

/-- The name of a join after its caret. AND has none, nor has the place before the first leaf. -/
def mark : Option Join → List Char
  | none | some .and => []
  | some .or => ['O', 'R']
  | some .newQuery => ['N', 'Q']

def piece (leaf : Option Join × Condition) : List Char := mark leaf.1 ++ leaf.2.predicate.toList

def reading (leaf : Option Join × Condition) : Option Join × String := (leaf.1, leaf.2.predicate)

/-- Reads what follows a caret. A predicate has two characters at least, so a name with less than
that after it is no name. -/
def readPiece : List Char → Option Join × String
  | 'O' :: 'R' :: a :: b :: rest => (some .or, String.ofList (a :: b :: rest))
  | 'N' :: 'Q' :: a :: b :: rest => (some .newQuery, String.ofList (a :: b :: rest))
  | predicate => (some .and, String.ofList predicate)

/-- Reads a query: its predicates, each with what joins it to the one before. -/
def read (query : String) : List (Option Join × String) :=
  match query.toList.splitOn '^' with
  | [] => []
  | first :: others => (none, String.ofList first) :: others.map readPiece

/-- The text begins with the name of a join and goes on for two characters at least, so that it
would be read as that join and a predicate. -/
def Misleading (predicate : String) : Prop :=
  ∃ name ∈ ["OR", "NQ"], name.toList <+: predicate.toList ∧ name.length + 2 ≤ predicate.length

instance (predicate : String) : Decidable (Misleading predicate) :=
  inferInstanceAs (Decidable (∃ name ∈ ["OR", "NQ"],
    name.toList <+: predicate.toList ∧ name.length + 2 ≤ predicate.length))

theorem toList_opening {join : Option Join} (joined : join ≠ none) :
    (Join.opening join).toList = '^' :: mark join := by
  rcases join with _ | _ | _ | _
  · exact absurd rfl joined
  all_goals rfl

theorem caret_not_mem_mark (join : Option Join) : '^' ∉ mark join := by
  rcases join with _ | _ | _ | _ <;> decide

theorem misleading_of_toList (name : String) {predicate : String} {a b : Char} {rest : List Char}
    (named : name ∈ ["OR", "NQ"]) (text : predicate.toList = name.toList ++ a :: b :: rest) :
    Misleading predicate := by
  refine ⟨name, named, ⟨a :: b :: rest, text.symm⟩, ?_⟩
  rw [← String.length_toList, ← String.length_toList, text, List.length_append, List.length_cons,
    List.length_cons]
  omega

/-- Behind a bare caret a predicate is read as it stands, unless it is misleading. -/
theorem readPiece_and {predicate : String} (clear : ¬ Misleading predicate) :
    readPiece predicate.toList = (some .and, predicate) := by
  unfold readPiece
  split
  · rename_i text
    exact absurd (misleading_of_toList "OR" (by simp) text) clear
  · rename_i text
    exact absurd (misleading_of_toList "NQ" (by simp) text) clear
  · rw [String.ofList_toList]

/-- A piece behind a caret is read as the leaf that it stands for. -/
theorem readPiece_piece {leaf : Option Join × Condition} (joined : leaf.1 ≠ none)
    (complete : leaf.2.isComplete = true)
    (clear : leaf.1 = some .and → ¬ Misleading leaf.2.predicate) :
    readPiece (piece leaf) = reading leaf := by
  obtain ⟨join, c⟩ := leaf
  obtain ⟨a, b, rest, text⟩ := c.exists_toList_predicate complete
  have whole : c.predicate = String.ofList (a :: b :: rest) := by rw [← text, String.ofList_toList]
  rcases join with _ | _ | _ | _
  · exact absurd rfl joined
  · exact readPiece_and (clear rfl)
  all_goals
    simp only [piece, mark, text, reading]
    rw [whole]
    rfl

/-- Two rows of leaves read the same exactly if they have the same joins and the same predicates. -/
theorem map_reading_eq_iff {row row' : List (Option Join × Condition)} :
    row.map reading = row'.map reading ↔
      row.map Prod.fst = row'.map Prod.fst ∧
        (row.map Prod.snd).map Condition.predicate = (row'.map Prod.snd).map Condition.predicate := by
  have zipped (row : List (Option Join × Condition)) :
      row.map reading = (row.map Prod.fst).zip ((row.map Prod.snd).map Condition.predicate) := by
    rw [List.map_map, List.zip_map']
    rfl
  constructor
  · intro same
    have joins := congrArg (List.map Prod.fst) same
    have predicates := congrArg (List.map Prod.snd) same
    rw [List.map_map, List.map_map] at joins predicates
    rw [List.map_map, List.map_map]
    exact ⟨joins, predicates⟩
  · rintro ⟨joins, predicates⟩
    rw [zipped, zipped, joins, predicates]

end Query

namespace Forest

open Query (piece)

/-- What is recited from a leaf on: after what joins it, its predicate, and then the pieces of the
others, a caret before each. -/
theorem toList_recital (leaf : Option Join × Condition) {more : List (Option Join × Condition)}
    (joined : ∀ x ∈ more, x.1 ≠ none) :
    (recital (leaf :: more)).toList =
      (Join.opening leaf.1).toList ++
        ['^'].intercalate (leaf.2.predicate.toList :: more.map piece) := by
  induction more generalizing leaf with
  | nil => simp [recital]
  | cons next more ih =>
    obtain ⟨here, later⟩ := List.forall_mem_cons.mp joined
    have split : recital (leaf :: next :: more) = recital [leaf] ++ recital (next :: more) :=
      recital_append [leaf] (next :: more)
    have alone : recital [leaf] = Join.opening leaf.1 ++ leaf.2.predicate := by simp [recital]
    -- the name of the join opens the piece
    have opens : ['^'].intercalate (piece next :: more.map piece) =
        Query.mark next.1 ++ ['^'].intercalate (next.2.predicate.toList :: more.map piece) := by
      cases more with
      | nil => simp [piece]
      | cons last more => simp [piece, List.intercalate_cons_cons]
    rw [split, alone, String.toList_append, ih next later, Query.toList_opening here,
      List.map_cons, List.intercalate_cons_cons, opens]
    simp

/-- What is recited of leaves is made of what there is to read of them. -/
theorem recital_congr {row row' : List (Option Join × Condition)}
    (same : row.map Query.reading = row'.map Query.reading) : recital row = recital row' := by
  have said (row : List (Option Join × Condition)) :
      recital row = String.join ((row.map Query.reading).map fun x => Join.opening x.1 ++ x.2) := by
    rw [List.map_map]
    rfl
  rw [said, said, same]

/-- What is read from a recital is what was recited. -/
theorem read_recital {c : Condition} {more : List (Option Join × Condition)}
    (joined : ∀ x ∈ more, x.1 ≠ none) (plain : ∀ x ∈ (none, c) :: more, x.2.Plain)
    (complete : ∀ x ∈ more, x.2.isComplete = true)
    (clear : ∀ x ∈ more, x.1 = some .and → ¬ Query.Misleading x.2.predicate) :
    Query.read (recital ((none, c) :: more)) = ((none, c) :: more).map Query.reading := by
  have free : ∀ text ∈ c.predicate.toList :: more.map piece, '^' ∉ text := by
    rw [List.forall_mem_cons] at plain
    rw [List.forall_mem_cons, List.forall_mem_map]
    refine ⟨Condition.caret_not_mem_predicate plain.1, fun x mem => ?_⟩
    rw [piece, List.mem_append, not_or]
    exact ⟨Query.caret_not_mem_mark x.1, Condition.caret_not_mem_predicate (plain.2 x mem)⟩
  have pieces : (recital ((none, c) :: more)).toList.splitOn '^' =
      c.predicate.toList :: more.map piece := by
    rw [toList_recital _ joined]
    exact List.splitOn_intercalate '^' free (List.cons_ne_nil _ _)
  have others : (more.map piece).map Query.readPiece = more.map Query.reading := by
    rw [List.map_map]
    apply List.map_congr_left
    intro x mem
    exact Query.readPiece_piece (joined x mem) (complete x mem) (clear x mem)
  unfold Query.read
  rw [pieces]
  simp only [others, String.ofList_toList]
  rfl

end Forest

namespace Model

/-- What the grammar can carry: complete conditions without a caret, of which none that AND joins to
the one before is misleading. -/
structure Legible (m : Model) : Prop where
  complete : ∀ c ∈ m.leaves, c.isComplete = true
  plain : ∀ c ∈ m.leaves, c.Plain
  clear : ∀ x ∈ m.joined, x.1 = some .and → ¬ Query.Misleading x.2.predicate

theorem leafCount_eq (m : Model) : m.leafCount = m.joined.length :=
  (Forest.length_joined _ _ m.forest).symm

/-- The query of a legible model is there, and its joins and predicates are read from it. -/
theorem exists_read {m : Model} (valid : m.Valid) (legible : m.Legible) :
    ∃ query, m.query? = some query ∧
      Query.read query = m.joined.map Query.reading := by
  obtain ⟨ne, full, _⟩ := valid_iff.mp valid
  refine ⟨_, query?_of_complete valid legible.complete, ?_⟩
  have later : some Join.newQuery ≠ none := nofun
  obtain ⟨c, more, joined, others⟩ := Forest.joined_eq_cons none full ne later
  have joined : m.joined = (none, c) :: more := joined
  have leaf : ∀ x ∈ (none, c) :: more, x.2 ∈ m.leaves := by
    rw [← joined, ← m.map_snd_joined]
    exact fun x mem => List.mem_map_of_mem mem
  rw [joined]
  apply Forest.read_recital others
  · exact fun x mem => legible.plain _ (leaf x mem)
  · exact fun x mem => legible.complete _ (leaf x (List.mem_cons_of_mem _ mem))
  · exact fun x mem => legible.clear x (joined ▸ List.mem_cons_of_mem _ mem)

/-- **A legible query has one reading.** Take two models that are accepted, with complete conditions
and no caret in their texts, and in which no condition that AND joins looks like a named join with a
predicate. Their queries are the same exactly if they have the same number of conditions, the same
joins along their trails and, place by place, the same predicates. -/
theorem query?_eq_iff {m k : Model} (hm : m.Accepted) (hk : k.Accepted) (legible : m.Legible)
    (legible' : k.Legible) :
    ∃ query, m.query? = some query ∧
      (k.query? = some query ↔
        m.leafCount = k.leafCount ∧ m.trail.map (·.join) = k.trail.map (·.join) ∧
          m.leaves.map Condition.predicate = k.leaves.map Condition.predicate) := by
  have valid := accepted_iff_valid.mp hm
  have valid' := accepted_iff_valid.mp hk
  obtain ⟨query, asked, read⟩ := exists_read valid legible
  refine ⟨query, asked, ?_⟩
  rw [map_join_trail, map_join_trail, ← map_snd_joined, ← map_snd_joined,
    ← Query.map_reading_eq_iff]
  constructor
  · intro same
    obtain ⟨query', asked', read'⟩ := exists_read valid' legible'
    obtain rfl : query = query' := Option.some_inj.mp (same.symm.trans asked')
    have readings := read.symm.trans read'
    have lengths := congrArg List.length readings
    rw [List.length_map, List.length_map] at lengths
    exact ⟨by rw [leafCount_eq, leafCount_eq, lengths], readings⟩
  · rintro ⟨_, readings⟩
    rw [query?_of_complete valid legible.complete] at asked
    rw [query?_of_complete valid' legible'.complete, ← asked, Forest.recital_congr readings]

/-- The leaves of `branching` under other groups, with the same joins. -/
def regrouped : Model :=
  let term (id : String) : Node :=
    .condition { id := ⟨id⟩, field := id, operator := "=", value := "1" }
  let group (id : String) (kind : Kind) (children : Forest) : Group := ⟨⟨id⟩, kind, children⟩
  ⟨[group "one" .and [term "a", .group (group "two" .or [term "b", term "c"]), term "d"],
    group "four" .or [term "e", term "f"]]⟩

/-- The query tells the joins and the predicates, but not how the conditions are grouped. -/
theorem query?_eq_iff_regrouped :
    branching.Accepted ∧ regrouped.Accepted ∧ branching.Legible ∧ regrouped.Legible ∧
      branching ≠ regrouped ∧ branching.query? = regrouped.query? ∧
      branching.trail.map (·.join) = regrouped.trail.map (·.join) := by
  have accepted : branching.Accepted := rfl
  have accepted' : regrouped.Accepted := rfl
  have legible : branching.Legible := by constructor <;> decide
  have legible' : regrouped.Legible := by constructor <;> decide
  have same : branching.query? = regrouped.query? := rfl
  obtain ⟨query, asked, alike⟩ := query?_eq_iff accepted accepted' legible legible'
  obtain ⟨_, joins, _⟩ := alike.mp (same.symm.trans asked)
  exact ⟨accepted, accepted', legible, legible', by decide, same, joins⟩

/-- Two conditions, of which the second has a field and an operator that make the name of a join. -/
def conjunction : Model :=
  ⟨[⟨⟨"root"⟩, .and,
    [.condition { id := ⟨"a"⟩, field := "x", operator := "=", value := "1" },
      .condition { id := ⟨"b"⟩, field := "O", operator := "R", value := "=1" }]⟩]⟩

def alternative : Model :=
  ⟨[⟨⟨"root"⟩, .or,
    [.condition { id := ⟨"a"⟩, field := "x", operator := "=", value := "1" },
      .condition { id := ⟨"b"⟩, field := "=", operator := "1" }]⟩]⟩

/-- Complete conditions without a caret, whose fields do not begin with the name of a join, can make
the same query with other joins and other predicates. -/
theorem query?_alike :
    (∀ m ∈ [conjunction, alternative], m.Accepted ∧ ∀ c ∈ m.leaves,
        c.isComplete = true ∧ c.Plain ∧
          ¬ "OR".toList <+: c.field.toList ∧ ¬ "NQ".toList <+: c.field.toList) ∧
      conjunction.query? = some "x=1^OR=1" ∧ alternative.query? = some "x=1^OR=1" ∧
      conjunction.trail.map (·.join) = [none, some .and] ∧
      alternative.trail.map (·.join) = [none, some .or] ∧
      conjunction.leaves.map Condition.predicate ≠ alternative.leaves.map Condition.predicate := by
  refine ⟨?_, rfl, rfl, rfl, rfl, by decide⟩
  simp only [List.forall_mem_cons]
  exact ⟨⟨rfl, by decide⟩, ⟨rfl, by decide⟩, nofun⟩

end Model

end FilterTree

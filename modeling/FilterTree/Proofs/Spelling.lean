import FilterTree.Proofs.Joining

namespace FilterTree

/-- The way from a row down to a node: an index in the row, then one among the children of the group
there, and so on. -/
abbrev Route := List Nat

/-- The part that two routes share. -/
def Route.common : Route → Route → Route
  | i :: p, j :: q => if i = j then i :: common p q else []
  | _, _ => []

mutual

/-- The conditions at or below the node, each with the route to it from the node. -/
def Node.routes : Node → List (Route × Condition)
  | .condition c => [([], c)]
  | .group ⟨_, _, children⟩ => Forest.routes 0 children

/-- The conditions of the row with their routes, if the first node of the row has the index
`start`. -/
def Forest.routes (start : Nat) : List Node → List (Route × Condition)
  | [] => []
  | n :: rest => n.routes.map (fun x => (start :: x.1, x.2)) ++ Forest.routes (start + 1) rest

end

namespace Forest

def node? : Forest → Route → Option Node
  | _, [] => none
  | f, [i] => f[i]?
  | f, i :: j :: p => (f[i]?.bind Node.group?).bind fun g => node? g.children (j :: p)

/-- The groups that a route enters, the outermost first. -/
def entered : Forest → Route → List Group
  | _, [] => []
  | f, i :: p => (f[i]?.bind Node.group?).elim [] fun g => g :: entered g.children p

/-- The deepest group that two routes both enter. -/
def meet? (f : Forest) (p q : Route) : Option Group := (entered f (p.common q)).getLast?

/-- What stands between two conditions: the kind of the deepest group that both routes enter says it,
and if there is none it is `outer`. -/
def between (outer : String) (f : Forest) (p q : Route) : String :=
  match meet? f p q with
  | none => outer
  | some ⟨_, .and, _⟩ => "^"
  | some ⟨_, .or, _⟩ => "^OR"

theorem between_eq (outer : String) (f : Forest) (p q : Route) :
    between outer f p q = ((meet? f p q).map fun g => g.kind.separator).getD outer := by
  unfold between
  rcases meet? f p q with _ | ⟨_, kind, _⟩
  · rfl
  · cases kind <;> rfl

end Forest

namespace Model

def routes (m : Model) : List (Route × Condition) := Forest.routes 0 m.forest

def node? (m : Model) (p : Route) : Option Node := Forest.node? m.forest p

/-- What stands between the conditions at the ends of two routes. Routes below two roots enter no
group in common. -/
def between (m : Model) (p q : Route) : String := Forest.between "^NQ" m.forest p q

end Model

/-- The predicates in a line, and before each but the first what stands between the two routes. -/
def spell (between : Route → Route → String) : List (Route × Condition) → String
  | [] => ""
  | [(_, c)] => c.field ++ c.operator ++ c.value
  | (p, c) :: (q, d) :: rest =>
    c.field ++ c.operator ++ c.value ++ between p q ++ spell between ((q, d) :: rest)

def shown (routes : List (Route × Condition)) : List (Route × Condition) :=
  routes.filter fun x => x.2.isComplete

section
variable {between : Route → Route → String}

theorem shown_append (xs ys : List (Route × Condition)) : shown (xs ++ ys) = shown xs ++ shown ys :=
  List.filter_append _ _

theorem shown_map (i : Nat) (xs : List (Route × Condition)) :
    shown (xs.map fun x => (i :: x.1, x.2)) = (shown xs).map fun x => (i :: x.1, x.2) :=
  List.filter_map

theorem complete_of_mem_shown {xs : List (Route × Condition)} {x : Route × Condition}
    (h : x ∈ shown xs) : x.2.isComplete = true := (List.mem_filter.mp h).2

theorem spell_ne_empty {x : Route × Condition} (h : x.2.isComplete = true)
    (rest : List (Route × Condition)) : spell between (x :: rest) ≠ "" := by
  have field := (Condition.isComplete_iff.mp h).1
  cases rest <;> simp [spell, field]

theorem spell_map (i : Nat) (xs : List (Route × Condition)) :
    spell between (xs.map fun x => (i :: x.1, x.2)) =
      spell (fun p q => between (i :: p) (i :: q)) xs := by
  induction xs with
  | nil => rfl
  | cons x rest ih =>
    cases rest with
    | nil => rfl
    | cons y more => simpa only [List.map_cons, spell, String.append_right_inj] using ih

/-- Two lines make one, with what stands between them if neither is empty. -/
theorem spell_append {separator : String} {xs ys : List (Route × Condition)}
    (complete : ∀ x ∈ xs ++ ys, x.2.isComplete = true)
    (apart : ∀ x ∈ xs, ∀ y ∈ ys, between x.1 y.1 = separator) :
    spell between (xs ++ ys) = Text.glue separator (spell between xs) (spell between ys) := by
  induction xs with
  | nil => simp [spell]
  | cons x rest ih =>
    obtain ⟨first, complete⟩ := List.forall_mem_cons.mp complete
    obtain ⟨here, apart⟩ := List.forall_mem_cons.mp apart
    cases rest with
    | nil =>
      cases ys with
      | nil => simp [spell]
      | cons y more =>
        have second := complete y List.mem_cons_self
        rw [Text.glue_of_ne (spell_ne_empty first []) (spell_ne_empty second more)]
        simp only [List.cons_append, List.nil_append, spell, here y List.mem_cons_self]
    | cons z more =>
      have second := complete z List.mem_cons_self
      cases ys with
      | nil => simp [spell]
      | cons y last =>
        have third := complete y (by simp)
        have ih := ih complete apart
        rw [Text.glue_of_ne (spell_ne_empty second more) (spell_ne_empty third last)] at ih
        rw [Text.glue_of_ne (spell_ne_empty first _) (spell_ne_empty third last)]
        simp only [List.cons_append, spell] at ih ⊢
        rw [ih]
        simp only [String.append_assoc]

end

namespace Forest

theorem routes_cons (start : Nat) (n : Node) (rest : Forest) :
    routes start (n :: rest) =
      n.routes.map (fun x => (start :: x.1, x.2)) ++ routes (start + 1) rest := rfl

theorem map_snd_routes (start : Nat) (f : Forest) : (routes start f).map Prod.snd = leaves f := by
  induction f using induct generalizing start with
  | nil => rfl
  | condition c rest ih => simp [routes_cons, Node.routes, ih]
  | group g rest ihg ih =>
    have inner : (Node.group g).routes = routes 0 g.children := rfl
    rw [routes_cons, inner, List.map_append, ih, leaves_group, ← ihg 0, List.map_map]
    rfl

/-- Every route leads to its condition. -/
theorem node?_of_mem_routes {start : Nat} {f : Forest} {x : Route × Condition}
    (h : x ∈ routes start f) :
    ∃ k p, x.1 = (start + k) :: p ∧ node? f (k :: p) = some (.condition x.2) := by
  induction f using induct generalizing start x with
  | nil => cases h
  | condition c rest ih =>
    rcases List.mem_append.mp h with here | later
    · obtain rfl : x = ([start], c) := by simpa [Node.routes] using here
      exact ⟨0, [], rfl, rfl⟩
    · obtain ⟨k, p, route, found⟩ := ih later
      refine ⟨k + 1, p, by rw [route]; congr 1; omega, ?_⟩
      cases p <;> simpa [node?] using found
  | group g rest ihg ih =>
    rcases List.mem_append.mp h with here | later
    · obtain ⟨y, inner, rfl⟩ := List.mem_map.mp here
      obtain ⟨k, p, route, found⟩ := ihg inner
      refine ⟨0, k :: p, by simp [route], ?_⟩
      simpa [node?, Node.group?] using found
    · obtain ⟨k, p, route, found⟩ := ih later
      refine ⟨k + 1, p, by rw [route]; congr 1; omega, ?_⟩
      cases p <;> simpa [node?] using found

/-- The routes are in order, so that no two of them are the same. -/
theorem routes_pairwise (start : Nat) (f : Forest) :
    (routes start f).Pairwise fun x y => List.Lex (· < ·) x.1 y.1 := by
  -- what the head of a row holds comes before what the rest of the row holds
  have parts (start : Nat) (n : Node) (rest : Forest)
      (first : n.routes.Pairwise fun x y => List.Lex (· < ·) x.1 y.1)
      (later : (routes (start + 1) rest).Pairwise fun x y => List.Lex (· < ·) x.1 y.1) :
      (routes start (n :: rest)).Pairwise fun x y => List.Lex (· < ·) x.1 y.1 := by
    rw [routes_cons, List.pairwise_append]
    refine ⟨List.pairwise_map.mpr (first.imp fun lt => .cons lt), later, ?_⟩
    intro x hx y hy
    obtain ⟨z, _, rfl⟩ := List.mem_map.mp hx
    obtain ⟨k, p, route, _⟩ := node?_of_mem_routes hy
    rw [route]
    exact .rel (by omega)
  induction f using induct generalizing start with
  | nil => exact .nil
  | condition c rest ih => exact parts start _ rest (List.pairwise_singleton _ _) (ih _)
  | group g rest ihg ih => exact parts start _ rest (ihg 0) (ih _)

/-- All that has to be known of `separator` to read a row whose first node has the index `start`: it
is `outer` for two routes that part at once, and for two that enter the same group of the row it is
what that group says. -/
structure Reads (outer : String) (separator : Route → Route → String) (start : Nat) (f : Forest) :
    Prop where
  parting : ∀ i j p q, i ≠ j → separator (i :: p) (j :: q) = outer
  entering : ∀ k g, f[k]? = some (.group g) → ∀ p q,
    separator ((start + k) :: p) ((start + k) :: q) = between g.kind.separator g.children p q

theorem reads_between (outer : String) (f : Forest) : Reads outer (between outer f) 0 f := by
  constructor
  · intro i j p q other
    simp [between_eq, meet?, Route.common, other, entered]
  · intro k g found p q
    rw [Nat.zero_add]
    simp only [between_eq, meet?, Route.common, ↓reduceIte, entered, found, Option.bind_some,
      Node.group?, Option.elim_some, List.getLast?_cons, Option.map_some, Option.getD_some]
    cases (entered g.children (Route.common p q)).getLast? <;> rfl

section
variable {outer : String} {separator : Route → Route → String} {start : Nat} {rest : Forest}

theorem Reads.tail {n : Node} (h : Reads outer separator start (n :: rest)) :
    Reads outer separator (start + 1) rest := by
  refine ⟨h.parting, fun k g found p q => ?_⟩
  have := h.entering (k + 1) g (by simpa using found) p q
  rwa [Nat.add_comm k 1, ← Nat.add_assoc] at this

theorem Reads.group {g : Group} (h : Reads outer separator start (.group g :: rest)) (p q : Route) :
    separator (start :: p) (start :: q) = between g.kind.separator g.children p q :=
  h.entering 0 g rfl p q

/-- The line of a row is that of its head and that of its rest, with `outer` between them. -/
theorem Reads.spell_cons {n : Node} (h : Reads outer separator start (n :: rest)) :
    spell separator (shown (routes start (n :: rest))) =
      Text.glue outer (spell (fun p q => separator (start :: p) (start :: q)) (shown n.routes))
        (spell separator (shown (routes (start + 1) rest))) := by
  rw [routes_cons, shown_append, shown_map, ← spell_map]
  refine spell_append ?_ ?_
  · rw [← shown_map, ← shown_append]
    exact fun x => complete_of_mem_shown
  · intro x hx y hy
    obtain ⟨z, _, rfl⟩ := List.mem_map.mp hx
    obtain ⟨k, p, route, _⟩ := node?_of_mem_routes (List.mem_filter.mp hy).1
    rw [route]
    exact h.parting _ _ _ _ (by omega)

end

theorem spell_condition (between : Route → Route → String) (c : Condition) :
    spell between (shown (Node.condition c).routes) = c.encode := by
  unfold Condition.encode
  cases h : c.isComplete <;> simp [Node.routes, shown, h, spell, Condition.predicate]

theorem text_eq_spell {outer : String} {separator : Route → Route → String} {start : Nat}
    {f : Forest} (h : Reads outer separator start f) :
    text outer f = spell separator (shown (routes start f)) := by
  induction f using induct generalizing outer separator start with
  | nil => rfl
  | condition c rest ih => rw [text_condition, h.spell_cons, ih h.tail, spell_condition]
  | group g rest ihg ih =>
    have inner : (fun p q => separator (start :: p) (start :: q)) =
        between g.kind.separator g.children := funext fun p => funext (h.group p)
    rw [text_group, h.spell_cons, ih h.tail, inner, ihg (reads_between _ _)]
    rfl

end Forest

/-- **A query in one line.** The conditions of a model stand at the ends of its routes, in order. Its
text consists of the predicates of the complete ones, and between each two neighbours stands the
separator of the deepest group that holds both, or the separator of root groups if no group does. -/
theorem Model.encode_eq_spell (m : Model) :
    m.routes.map Prod.snd = m.leaves ∧
      (m.routes.Pairwise fun x y => List.Lex (· < ·) x.1 y.1) ∧
      (∀ x ∈ m.routes, m.node? x.1 = some (.condition x.2)) ∧
      m.encode = spell m.between (m.routes.filter fun x => x.2.isComplete) := by
  refine ⟨Forest.map_snd_routes 0 _, Forest.routes_pairwise 0 _, fun x hx => ?_, ?_⟩
  · obtain ⟨k, p, route, found⟩ := Forest.node?_of_mem_routes hx
    rw [route, Nat.zero_add]
    exact found
  · exact Forest.text_eq_spell (Forest.reads_between "^NQ" m.forest)

/-- Three queries, the second of which says nothing; whole groups and conditions in the others say
nothing either. -/
def Model.sketchy : Model :=
  let term (id field operator value : String) : Node :=
    .condition { id := ⟨id⟩, field, operator, value }
  let group (id : String) (kind : Kind) (children : Forest) : Group := ⟨⟨id⟩, kind, children⟩
  ⟨[group "one" .and
      [.group (group "two" .or
        [.group (group "three" .and [term "a" "state" "=" "1", term "b" "" "=" "2",
            term "c" "due" "<" "5"]),
          .group (group "four" .or [term "d" "age" "" ""]),
          term "e" "name" "ISEMPTY" ""]),
        .group (group "five" .or [term "f" "rank" ">" "7"])],
    group "six" .or [.group (group "seven" .and [term "g" "" "" ""])],
    group "eight" .or [term "h" "" "" "", term "i" "open" "=" "true", term "j" "kind" "!=" "x"]]⟩

/-- Separators bridge the condition `b`, the group `four` and the root `six`. -/
theorem Model.encode_eq_spell_sketchy :
    sketchy.encode = spell sketchy.between (sketchy.routes.filter fun x => x.2.isComplete) ∧
      sketchy.encode = "state=1^due<5^ORnameISEMPTY^rank>7^NQopen=true^ORkind!=x" :=
  ⟨(encode_eq_spell sketchy).2.2.2, rfl⟩

end FilterTree

import FilterTree.Proofs.Contents
import FilterTree.Proofs.Conversation
import FilterTree.Proofs.Joining
import FilterTree.Proofs.Splicing

/-!
# What is shown of a condition

A condition is shown by its labels where it has them. A line that chooses a field or an operator sets the
label with the text. A line that gives a value sets the text alone, so a display value that the condition
came with goes on being shown.
-/

namespace FilterTree

namespace Spliced

variable {α β : Type} {whole whole' : List α} {a b : α}

theorem mapIdx (f : Nat → α → β) (h : Spliced whole whole' [a] [b]) :
    ∃ i, Spliced (whole.mapIdx f) (whole'.mapIdx f) [f i a] [f i b] := by
  obtain ⟨x, y, rfl, rfl⟩ := h
  refine ⟨x.length, x.mapIdx f, y.mapIdx fun i => f (i + 1 + x.length), ?_, ?_⟩ <;>
    simp [List.mapIdx_append, List.mapIdx_cons]

theorem flatten_mapIdx {part part' : List β} (f : Nat → α → List β) (before : List α)
    (h : Spliced (f before.length a) (f before.length b) part part') (after : List α) :
    Spliced ((before ++ a :: after).mapIdx f).flatten ((before ++ b :: after).mapIdx f).flatten
      part part' := by
  simp only [List.mapIdx_append, List.mapIdx_cons, List.flatten_append, List.flatten_cons, Nat.zero_add]
  exact (h.append_right _).append_left _

theorem intercalate {one one' part part' : List α} (h : Spliced one one' part part')
    (separator : List α) (before after : List (List α)) :
    Spliced (separator.intercalate (before ++ one :: after))
      (separator.intercalate (before ++ one' :: after)) part part' := by
  induction before with
  | nil =>
    cases after with
    | nil => simpa only [List.nil_append, List.intercalate_singleton] using h
    | cons next after =>
      simp only [List.nil_append, List.intercalate_cons_cons, List.append_assoc]
      exact h.append_right _
  | cons first rest ih =>
    rw [List.cons_append, List.cons_append, List.intercalate_cons_of_ne_nil (by simp),
      List.intercalate_cons_of_ne_nil (by simp)]
    exact ih.append_left _

end Spliced

namespace Text

/-- A text goes on in the same way whatever it is, unless it is empty. -/
theorem glue_of_ne_left (separator u : String) :
    ∃ tail, ∀ t, t ≠ "" → glue separator t u = t ++ tail := by
  by_cases hu : u = ""
  · exact ⟨"", fun t _ => by simp [hu]⟩
  · exact ⟨separator ++ u, fun t ht => by rw [glue_of_ne ht hu, String.append_assoc]⟩

theorem glue_of_ne_right (separator t : String) :
    ∃ head, ∀ u, u ≠ "" → glue separator t u = head ++ u := by
  by_cases ht : t = ""
  · exact ⟨"", fun u _ => by simp [ht]⟩
  · exact ⟨t ++ separator, fun u hu => by rw [glue_of_ne ht hu]⟩

end Text

namespace Screen

/-- What is shown of a condition with this field and these displayed parts. -/
def parts (field : String) (display : List String) : String :=
  if field = "" then "(空条件)" else Text.trimEnd (" ".intercalate display)

/-- The row of a node that is shown as this text and stands `depth` levels in. -/
def row (depth : Nat) (id : NodeId) (text : String) : String :=
  indent depth ++ "[" ++ short id ++ "] " ++ text

end Screen

namespace Forest

/-- The second forest is the first with the condition `c'` in the place of `c`. -/
def Exchanges (c c' : Condition) : Forest → Forest → Prop :=
  Rewrite fun row row' => ∃ rest, row = .condition c :: rest ∧ row' = .condition c' :: rest

section
variable {c c' : Condition} {f f' : Forest}

theorem Exchanges.rows (h : Exchanges c c' f f') (depth : Nat) :
    ∃ deep, Spliced (rows depth f) (Forest.rows depth f')
      [Screen.row deep c.id (Screen.condition c)] [Screen.row deep c'.id (Screen.condition c')] := by
  induction h generalizing depth with
  | here made =>
    obtain ⟨rest, rfl, rfl⟩ := made
    exact ⟨depth, (Spliced.self _ _).append_right (Forest.rows depth rest)⟩
  | after n _ ih =>
    obtain ⟨deep, spliced⟩ := ih depth
    exact ⟨deep, spliced.append_left (n.rows depth)⟩
  | inside g rest _ ih =>
    obtain ⟨deep, spliced⟩ := ih (depth + 1)
    exact ⟨deep, (spliced.append_left [_]).append_right (Forest.rows depth rest)⟩

theorem Exchanges.joined (h : Exchanges c c' f f') (later first : Option Join) :
    ∃ join, Spliced (joined later first f) (Forest.joined later first f') [(join, c)] [(join, c')] := by
  induction h generalizing later first with
  | here made =>
    obtain ⟨rest, rfl, rfl⟩ := made
    exact ⟨first, (Spliced.self _ _).append_right (Forest.joined later later rest)⟩
  | after n _ ih =>
    obtain ⟨join, spliced⟩ := ih later later
    exact ⟨join, spliced.append_left (n.joined first)⟩
  | inside g rest _ ih =>
    obtain ⟨join, spliced⟩ := ih (some g.kind.join) first
    exact ⟨join, spliced.append_right (Forest.joined later later rest)⟩

theorem Exchanges.groupTrail {r r' : Group} (same : c'.id = c.id)
    (h : Exchanges c c' [.group r] [.group r']) (root : Nat) (first : Option Join) :
    ∃ crumb : Crumb, crumb.id = c.id ∧ crumb.label = c.label ∧
      Spliced (r.trail root first) (r'.trail root first) [crumb] [{ crumb with label := c'.label }] := by
  obtain ⟨join, joined⟩ := h.joined none first
  have below (g : Group) : Forest.joined none first [.group g] = Node.joined first (.group g) :=
    List.append_nil _
  rw [below, below] at joined
  obtain ⟨leaf, crumbs⟩ := joined.mapIdx fun leaf x =>
    (⟨root, leaf, x.2.id, x.1, x.2.label⟩ : Crumb)
  have crumb : (⟨root, leaf, c'.id, join, c'.label⟩ : Crumb) =
      { (⟨root, leaf, c.id, join, c.label⟩ : Crumb) with label := c'.label } := by rw [same]
  refine ⟨⟨root, leaf, c.id, join, c.label⟩, rfl, rfl, ?_⟩
  rw [← crumb]
  exact crumbs

/-- In the query one predicate is exchanged for the other, if both can run. -/
theorem Exchanges.text (h : Exchanges c c' f f') (separator : String) (complete : c.isComplete = true)
    (complete' : c'.isComplete = true) :
    ∃ x y, text separator f = x ++ c.predicate ++ y ∧
      Forest.text separator f' = x ++ c'.predicate ++ y := by
  have old : c.predicate ≠ "" := Condition.predicate_ne_empty complete
  have new : c'.predicate ≠ "" := Condition.predicate_ne_empty complete'
  have shown (x y : String) : x ++ c.predicate ++ y ≠ "" := by simp [old]
  have shown' (x y : String) : x ++ c'.predicate ++ y ≠ "" := by simp [new]
  induction h generalizing separator with
  | here made =>
    obtain ⟨rest, rfl, rfl⟩ := made
    obtain ⟨tail, glued⟩ := Text.glue_of_ne_left separator (Forest.text separator rest)
    refine ⟨"", tail, ?_, ?_⟩
    · rw [text_condition, Condition.encode, if_pos complete, glued _ old, String.empty_append]
    · rw [text_condition, Condition.encode, if_pos complete', glued _ new, String.empty_append]
  | after n _ ih =>
    obtain ⟨x, y, before, after⟩ := ih separator
    obtain ⟨head, glued⟩ := Text.glue_of_ne_right separator n.encode
    refine ⟨head ++ x, y, ?_, ?_⟩
    · rw [text_cons, before, glued _ (shown x y)]
      simp only [String.append_assoc]
    · rw [text_cons, after, glued _ (shown' x y)]
      simp only [String.append_assoc]
  | inside g rest _ ih =>
    obtain ⟨x, y, before, after⟩ := ih g.kind.separator
    obtain ⟨tail, glued⟩ := Text.glue_of_ne_left separator (Forest.text separator rest)
    refine ⟨x, y ++ tail, ?_, ?_⟩
    · rw [text_group, before, glued _ (shown x y)]
      simp only [String.append_assoc]
    · rw [text_group, after, glued _ (shown' x y)]
      simp only [String.append_assoc]

/-- A condition below the roots is exchanged below one of them. -/
theorem Exchanges.exists_root (h : Exchanges c c' f f') (groups : OnlyGroups f) :
    ∃ before r r' after, f = before ++ .group r :: after ∧ f' = before ++ .group r' :: after ∧
      Exchanges c c' [.group r] [.group r'] := by
  induction h with
  | here made =>
    obtain ⟨rest, rfl, rfl⟩ := made
    exact absurd groups (not_onlyGroups_condition c rest)
  | after n _ ih =>
    obtain ⟨before, r, r', after, rfl, rfl, within⟩ := ih ((onlyGroups_cons n _).mp groups).2
    exact ⟨n :: before, r, r', after, rfl, rfl, within⟩
  | @inside g rest f' path _ =>
    exact ⟨[], g, { g with children := f' }, rest, rfl, rfl, .inside g [] path⟩

end

end Forest

namespace Model

/-- The second model is shown as the first, on the screen and in the trail, but for the condition: its
crumb is labelled by the parts that are not empty, and its row shows them all if there is a field. -/
structure Shows (m k : Model) (c : Condition) (field : String) (display : List String) : Prop where
  trail : ∃ crumb, crumb.id = c.id ∧ crumb.label = c.label ∧
    Spliced m.trail k.trail [crumb] [{ crumb with label := Text.joinFilled " " display }]
  rows : ∃ depth, Spliced (Screen.rows m) (Screen.rows k)
    [Screen.row depth c.id (Screen.condition c)]
    [Screen.row depth c.id (Screen.parts field display)]

variable {m k : Model} {c c' : Condition}

theorem roots_of_forest {before after : Forest} {r : Group}
    (forest : m.forest = before ++ .group r :: after) :
    m.roots = before.filterMap Node.group? ++ r :: after.filterMap Node.group? := by
  rw [← m.ofForest_forest, forest]
  simp [ofForest, Node.group?]

/-- A patch exchanges the condition for the patched one. -/
theorem exchanges_of_patched {g : Group} {p : Patch} (patched : m.Patched g c p k) :
    Forest.Exchanges c (c.patch p) m.forest k.forest := by
  obtain ⟨before, after, children, path⟩ := patched
  refine (path.mono ?_).flatten
  rintro _ _ ⟨rest, rfl, rfl⟩
  refine .inside g rest ?_
  rw [children]
  exact .append_left before (.here ⟨after, rfl, rfl⟩)

/-- Only the patched condition is shown in another way. -/
theorem shows_of_patched {g : Group} {p : Patch} (patched : m.Patched g c p k) :
    m.Shows k c (c.patch p).field (c.patch p).display := by
  obtain ⟨before, r, r', after, forest, forest', within⟩ :=
    (exchanges_of_patched patched).exists_root m.onlyGroups_forest
  have roots := roots_of_forest forest
  have roots' := roots_of_forest forest'
  constructor
  · obtain ⟨crumb, id, label, spliced⟩ :=
      within.groupTrail (c.id_patch p) (before.filterMap Node.group?).length
        (if (before.filterMap Node.group?).length = 0 then none else some .newQuery)
    refine ⟨crumb, id, label, ?_⟩
    rw [trail, trail, roots, roots']
    exact Spliced.flatten_mapIdx _ _ spliced _
  · obtain ⟨depth, spliced⟩ := within.rows 0
    have below (g : Group) : Forest.rows 0 [.group g] = Node.rows 0 (.group g) := List.append_nil _
    rw [below, below] at spliced
    refine ⟨depth, ?_⟩
    rw [Screen.rows, Screen.rows, roots, roots', List.map_append, List.map_append, List.map_cons,
      List.map_cons]
    exact Spliced.intercalate spliced _ _ _

/-- A value goes into the query, but what is shown is the display value if there is one. -/
theorem shows_of_value {g : Group} {text : String} (patched : m.Patched g c (.ofValue text) k) :
    m.Shows k c c.field
        [c.fieldLabel.getD c.field, c.operatorLabel.getD c.operator, c.displayValue.getD text] ∧
      (c.isComplete = true → ∃ x y, m.encode = x ++ c.predicate ++ y ∧
        k.encode = x ++ (c.field ++ c.operator ++ text) ++ y) := by
  refine ⟨shows_of_patched patched, fun complete => ?_⟩
  have complete' : (c.patch (.ofValue text)).isComplete = true := complete
  exact (exchanges_of_patched patched).text separator complete complete'

end Model

namespace Console

variable {files : Files} {catalog : Catalog} {d : Draft} {reply : Reply}

/-- **What is shown once a field, an operator or a value is set.** At any point of a conversation, a
command that sets a part of a condition changes what is shown of this condition and nothing else. After a
field is chosen its label is shown, and no operator and no value. After an operator is chosen the label
of the catalog is shown for it. After a value is given it goes into the query of a complete condition,
but it is shown only if the condition has no display value; otherwise that display value still is. -/
theorem execute_shows {table : String} {supply : Supply} (distinct : supply.Distinct)
    (reached : Reached catalog table supply d) (files : Files) :
    (∀ word field reply, (Command.set word field).execute files catalog d = .ok reply →
      ∃ opening path g c r, word = some opening ∧ field = some path ∧
        d.model.OnlyCondition opening g c ∧ catalog.resolve? d.table path = some r ∧
        d.model.Shows reply.draft.model c path [r.label, "", ""]) ∧
      (∀ word operator reply, (Command.op word operator).execute files catalog d = .ok reply →
        ∃ opening name g c r o, word = some opening ∧ operator = some name ∧
          d.model.OnlyCondition opening g c ∧ catalog.resolve? d.table c.field = some r ∧
          r.info.operator? name = some o ∧
          d.model.Shows reply.draft.model c c.field
            [c.fieldLabel.getD c.field, o.label, c.displayValue.getD c.value]) ∧
      ∀ word words reply, (Command.value word words).execute files catalog d = .ok reply →
        ∃ opening g c, word = some opening ∧ d.model.OnlyCondition opening g c ∧
          (c.displayValue = none →
            d.model.Shows reply.draft.model c c.field
              [c.fieldLabel.getD c.field, c.operatorLabel.getD c.operator, " ".intercalate words]) ∧
          (∀ shown, c.displayValue = some shown →
            d.model.Shows reply.draft.model c c.field
              [c.fieldLabel.getD c.field, c.operatorLabel.getD c.operator, shown]) ∧
          (c.isComplete = true → ∃ x y, d.model.encode = x ++ c.predicate ++ y ∧
            reply.draft.model.encode =
              x ++ (c.field ++ c.operator ++ " ".intercalate words) ++ y) := by
  have valid := (sound_of_reached distinct reached).valid
  refine ⟨fun word field reply done => ?_, fun word operator reply done => ?_,
    fun word words reply done => ?_⟩
  · obtain ⟨_, k, edits, effective⟩ := edits_of_execute valid rfl done
    rw [effective.draft]
    cases edits with
    | @set opening path g c p _ one chosen made =>
      obtain ⟨r, found, rfl⟩ := Option.map_eq_some_iff.mp chosen
      exact ⟨opening, path, g, c, r, rfl, rfl, one, found, Model.shows_of_patched made⟩
  · obtain ⟨_, k, edits, effective⟩ := edits_of_execute valid rfl done
    rw [effective.draft]
    cases edits with
    | @op opening name g c p _ one chosen made =>
      obtain ⟨r, found, chosen⟩ := Option.bind_eq_some_iff.mp chosen
      obtain ⟨o, listed, chosen⟩ := Option.bind_eq_some_iff.mp chosen
      cases chosen
      exact ⟨opening, name, g, c, r, o, rfl, rfl, one, found, listed, Model.shows_of_patched made⟩
  · obtain ⟨_, k, edits, effective⟩ := edits_of_execute valid rfl done
    rw [effective.draft]
    cases edits with
    | @value opening _ g c _ one made =>
      obtain ⟨shows, query⟩ := Model.shows_of_value made
      refine ⟨opening, g, c, rfl, one, fun undisplayed => ?_, fun shown displayed => ?_, query⟩
      · rwa [undisplayed] at shows
      · rwa [displayed] at shows

def labelled : Model :=
  ⟨[⟨⟨"root"⟩, .and, [.condition
    { id := ⟨"a"⟩
      field := "priority"
      operator := "="
      value := "1"
      fieldLabel := some "Priority"
      operatorLabel := some "is"
      displayValue := some "1 - Critical" }]⟩]⟩

/-- The condition is loaded with a display value and given another value. That value is in the query, and
the old one still on the screen. -/
theorem execute_shows_labelled :
    let files : Files := fun _ => .ok labelled.document
    let d := (answer files .sample (.start "incident" Draft.tally) "load m.json").draft
    Draft.tally.Distinct ∧ Reached .sample "incident" Draft.tally d ∧
      ∃ reply c, (Command.value (some "a") ["5"]).execute files .sample d = .ok reply ∧
        c ∈ d.model.leaves ∧ c.displayValue = some "1 - Critical" ∧
        d.model.Shows reply.draft.model c "priority" ["Priority", "is", "1 - Critical"] ∧
        reply.draft.model.encode = "priority=5" := by
  intro files d
  have valid : labelled.Valid := Model.accepted_iff_valid.mp rfl
  have read (path : String) : modelOf files path = .ok labelled :=
    modelOf_document valid (by decide) rfl
  have line : Command.ofLine "load m.json" = .load (some "m.json") := by decide +kernel
  have reached : Reached .sample "incident" Draft.tally d := by
    refine .next .start ?_
    intro path m _ opened
    rw [read] at opened
    cases opened
    exact Draft.spares_tally (by decide)
  have draft : d = ⟨"incident", labelled, Draft.tally.rest.rest⟩ := answer_load line (read _)
  have resolved : d.model.resolveCondition "a" = .ok (⟨"root"⟩, ⟨"a"⟩) := by rw [draft]; rfl
  have done : (Command.value (some "a") ["5"]).execute files .sample d =
      .ok (act d (.update ⟨"root"⟩ ⟨"a"⟩ (.ofValue (" ".intercalate ["5"])))) :=
    execute_value resolved ["5"]
  obtain ⟨_, _, value⟩ := execute_shows Draft.tally_distinct reached files
  obtain ⟨_, g, c, _, one, _, shows, _⟩ := value _ _ _ done
  have leaf := Model.mem_leaves_of_held one.known one.held
  have lone := leaf
  rw [draft] at lone
  cases List.mem_singleton.mp lone
  refine ⟨Draft.tally_distinct, reached, _, _, done, leaf, rfl, shows _ rfl, ?_⟩
  rw [act_draft, draft]
  decide

/-- Display values come with a model that is loaded, and from nowhere else. So as long as none is, every
value that is given is shown. -/
theorem displayValue_eq_none {supply : Supply} (distinct : supply.Distinct) (files : Files)
    (catalog : Catalog) (table : String) {lines : List String}
    (unloaded : ∀ line ∈ lines, (Command.ofLine line).file? = none) :
    ∀ c ∈ (follow files catalog (.start table supply) lines).model.leaves, c.displayValue = none := by
  have accepted : ∀ m : Model, m.Accepted → m.Valid := fun _ => Model.accepted_iff_valid.mp
  suffices kept : (follow files catalog (.start table supply) lines).Sound ∧
      Forest.Every (·.displayValue = none)
        (follow files catalog (.start table supply) lines).model.forest from kept.2
  refine follow_preserves (P := fun d => d.Sound ∧ Forest.Every (·.displayValue = none) d.model.forest)
    ?_ ⟨Draft.sound_of_begun distinct accepted (.blank table), Forest.every_blank rfl⟩ unloaded
  rintro d ⟨sound, every⟩ a granted
  have keeps := granted.isReplace
  refine ⟨Draft.sound_perform sound accepted (Action.admissible_of_isReplace keeps), ?_⟩
  rcases Draft.perform_cases d a with same | next
  · rwa [same]
  rw [next]
  refine Action.every_apply sound.valid every rfl keeps ?_
  -- a field clears the display value, and an operator or a value leaves it alone
  rintro e p ⟨g, c, rfl, found⟩ before
  cases granted with
  | field chosen =>
    obtain ⟨r, _, rfl⟩ := Option.map_eq_some_iff.mp chosen
    rfl
  | operator chosen =>
    obtain ⟨r, _, chosen⟩ := Option.bind_eq_some_iff.mp chosen
    obtain ⟨o, _, chosen⟩ := Option.bind_eq_some_iff.mp chosen
    cases chosen
    exact before
  | value => exact before
  | other _ moves => cases moves

end Console

end FilterTree

import FilterTree.Proofs.Commands
import FilterTree.Proofs.Contents
import FilterTree.Proofs.Lifetime
import FilterTree.Proofs.Recital

namespace FilterTree

/-! ## Conditions that agree with a catalog -/

/-- The labels, the type, the table and the operator of the condition are those of its field. Of an
operator that is listed more than once the first entry counts. -/
structure Resolved.Labels (r : Resolved) (c : Condition) : Prop where
  label : c.fieldLabel = some r.label
  type : c.fieldType = some r.info.fieldType
  table : c.table = if '.' ∈ c.field.toList then some r.table else none
  operator : c.operator ≠ "" →
    ∃ o, r.info.operators.find? (·.operator = c.operator) = some o ∧ c.operatorLabel = some o.label

namespace Catalog

variable {catalog : Catalog} {table : String}

/-- Seen from the table, the field of the condition is one of the catalog, and the condition is
labelled so. Of a condition without a field nothing is asked. -/
def Describes (catalog : Catalog) (table : String) (c : Condition) : Prop :=
  c.field ≠ "" → ∃ r, catalog.resolve? table c.field = some r ∧ r.Labels c

def Lists (catalog : Catalog) (table : String) (c : Condition) : Prop :=
  ∃ r, catalog.resolve? table c.field = some r ∧ ∃ o ∈ r.info.operators, o.operator = c.operator

theorem describes_blank (id : NodeId) : catalog.Describes table (.blank id) :=
  fun shown => absurd rfl shown

theorem Describes.lists {c : Condition} (h : catalog.Describes table c)
    (complete : c.isComplete = true) : catalog.Lists table c := by
  obtain ⟨field, operator⟩ := Condition.isComplete_iff.mp complete
  obtain ⟨r, found, labels⟩ := h field
  obtain ⟨o, listed, _⟩ := labels.operator operator
  have named := List.find?_some listed
  exact ⟨r, found, o, List.mem_of_find?_eq_some listed, by simpa using named⟩

/-- A condition is described once its field is chosen, whatever it was before. -/
theorem describes_of_fieldPatch? {path : String} {p : Patch}
    (h : catalog.fieldPatch? table path = some p) (c : Condition) :
    catalog.Describes table (c.patch p) := by
  obtain ⟨r, found, rfl⟩ := Option.map_eq_some_iff.mp h
  intro _
  refine ⟨r, found, rfl, rfl, ?_, fun shown => absurd rfl shown⟩
  show (if Path.isDotted path then some r.table else none) = _
  simp [Path.isDotted, Condition.patch]

/-- The choice of an operator for the field that a condition has keeps it described. -/
theorem describes_of_operatorPatch? {c : Condition} {operator : String} {p : Patch}
    (h : catalog.operatorPatch? table c.field operator = some p)
    (before : catalog.Describes table c) : catalog.Describes table (c.patch p) := by
  obtain ⟨r, found, h⟩ := Option.bind_eq_some_iff.mp h
  obtain ⟨o, listed, h⟩ := Option.bind_eq_some_iff.mp h
  cases h
  have named : o.operator = operator := by simpa using List.find?_some listed
  intro shown
  obtain ⟨r', found', labels⟩ := before shown
  obtain rfl : r = r' := Option.some_inj.mp (found.symm.trans found')
  refine ⟨r, found, labels.label, labels.type, labels.table, ?_⟩
  intro _
  refine ⟨o, ?_, rfl⟩
  show r.info.operators.find? (·.operator = o.operator) = some o
  rw [named]
  exact listed

theorem describes_of_value {c : Condition} (before : catalog.Describes table c) (value : String) :
    catalog.Describes table (c.patch (.ofValue value)) := by
  intro shown
  obtain ⟨r, found, labels⟩ := before shown
  exact ⟨r, found, labels.label, labels.type, labels.table, labels.operator⟩

end Catalog

/-! ## Drafts that agree with a catalog -/

namespace Draft

/-- The state between two lines: a draft for the table, all of whose conditions are described. -/
structure Coherent (catalog : Catalog) (table : String) (d : Draft) : Prop where
  sound : d.Sound
  table_eq : d.table = table
  every : Forest.Every (catalog.Describes table) d.model.forest

theorem coherent_start {supply : Supply} (distinct : supply.Distinct) (catalog : Catalog)
    (table : String) : (start table supply).Coherent catalog table where
  sound := sound_of_begun distinct (fun _ => Model.accepted_iff_valid.mp) (.blank table)
  table_eq := rfl
  every := Forest.every_blank (Catalog.describes_blank _)

theorem coherent_perform {catalog : Catalog} {table : String} {d : Draft}
    (h : d.Coherent catalog table) {a : Action} (granted : Console.Grants catalog d a) :
    (d.perform a).1.Coherent catalog table := by
  have keeps := granted.isReplace
  have sound := sound_perform h.sound (fun _ => Model.accepted_iff_valid.mp)
    (Action.admissible_of_isReplace keeps)
  rcases perform_cases d a with same | next
  · rwa [same]
  refine ⟨sound, by rw [next]; exact h.table_eq, ?_⟩
  rw [next]
  refine Action.every_apply h.sound.valid h.every (Catalog.describes_blank _) keeps ?_
  -- only a patch changes what a condition holds; the operator patch was made for the field that is
  -- found by the same identifiers, so it is the field of the condition that is changed
  rintro e p ⟨g, c, rfl, found⟩ before
  cases granted with
  | field chosen =>
    rw [h.table_eq] at chosen
    exact Catalog.describes_of_fieldPatch? chosen e
  | operator chosen =>
    rw [h.table_eq, found, Option.map_some, Option.getD_some] at chosen
    exact Catalog.describes_of_operatorPatch? chosen before
  | value _ _ value => exact Catalog.describes_of_value before value
  | other _ moves => cases moves

theorem coherent_follow {files : Files} {catalog : Catalog} {table : String} {d : Draft}
    (h : d.Coherent catalog table) {lines : List String}
    (unloaded : ∀ line ∈ lines, (Command.ofLine line).file? = none) :
    (Console.follow files catalog d lines).Coherent catalog table :=
  Console.follow_preserves (fun _ => coherent_perform) h unloaded

/-- What is handed over when the query of the draft is run: tables and queries, whatever is answered
to them. -/
def handed {ε : Type} (d : Draft) (reply : String → String → Except ε Unit) :
    List (String × String) :=
  let record (table query : String) : StateM (List (String × String)) (Except ε Unit) :=
    fun log => (reply table query, log ++ [(table, query)])
  ((d.run record).run []).2

/-- The query of a draft is handed over once, with its table, if there is one. -/
theorem handed_eq {ε : Type} (d : Draft) (reply : String → String → Except ε Unit) :
    d.handed reply = (d.model.query?.map fun query => (d.table, query)).toList := by
  unfold handed run
  cases d.model.query? with
  | none => rfl
  | some query =>
    simp only [StateT.run, bind, StateT.bind]
    cases reply d.table query with
    | ok _ => rfl
    | error _ => rfl

/-- **The console keeps to its catalog.** Let a draft begin blank for a table, and let lines be
answered one after the other, none of which reads a file. Then a condition that has a field has the
labels, the type and the table that the catalog tells of it, and if it has an operator, the catalog
lists it for the field. So whatever is handed over when a query is run is for the table, and it
recites predicates whose field the catalog knows and whose operator it lists for that field. -/
theorem follow_coherent {supply : Supply} (distinct : supply.Distinct) (files : Files)
    (catalog : Catalog) (table : String) {lines : List String}
    (unloaded : ∀ line ∈ lines, (Command.ofLine line).file? = none) :
    let d := Console.follow files catalog (start table supply) lines
    (∀ c ∈ d.model.leaves, catalog.Describes table c) ∧
      ∀ {ε : Type} (reply : String → String → Except ε Unit) (target query : String),
        (target, query) ∈ d.handed reply →
          target = table ∧ query = Forest.recital d.model.joined ∧
            d.model.joined.map Prod.snd = d.model.leaves ∧
            ∀ c ∈ d.model.leaves, catalog.Lists table c := by
  intro d
  have coherent : d.Coherent catalog table :=
    coherent_follow (coherent_start distinct catalog table) unloaded
  refine ⟨coherent.every, ?_⟩
  intro ε reply target query mem
  rw [handed_eq, Option.mem_toList, Option.map_eq_some_iff] at mem
  obtain ⟨text, found, same⟩ := mem
  cases same
  have complete := Model.complete_of_query? found
  have recital := Model.query?_of_complete coherent.sound.valid complete
  refine ⟨coherent.table_eq, Option.some_inj.mp (found.symm.trans recital),
    Forest.map_snd_joined _ _ _, ?_⟩
  intro c mem
  exact (coherent.every c mem).lists (complete c mem)

/-- Two conditions are filled in, one with a field that a reference leads to. One is split, and its
alternative takes a field in place of another, which clears the operator. -/
theorem follow_coherent_split :
    let lines := ["set c assigned_to.department", "op c =", "value c 7 x", "new g", "set c+ priority",
      "op c+ <", "value c+ 3", "split c+", "set c+++++ priority", "op c+++++ =",
      "set c+++++ active", "op c+++++ !=", "value c+++++ true"]
    let d := Console.follow (fun _ => .error .missing) .sample (start "incident" tally) lines
    (∀ line ∈ lines, (Command.ofLine line).file? = none) ∧
      d.handed (fun _ _ => Except.error ()) =
        [("incident", "assigned_to.department=7 x^priority<3^ORactive!=true")] ∧
      (∀ c ∈ d.model.leaves, Catalog.sample.Describes "incident" c) ∧
      ∀ c ∈ d.model.leaves, Catalog.sample.Lists "incident" c := by
  intro lines d
  have unloaded : ∀ line ∈ lines, (Command.ofLine line).file? = none := by decide +kernel
  have handed : d.handed (fun _ _ => Except.error ()) =
      [("incident", "assigned_to.department=7 x^priority<3^ORactive!=true")] := by decide +kernel
  obtain ⟨described, run⟩ :=
    follow_coherent tally_distinct (fun _ => .error .missing) .sample "incident" unloaded
  have mem := List.mem_singleton_self
    ("incident", "assigned_to.department=7 x^priority<3^ORactive!=true")
  rw [← handed] at mem
  exact ⟨unloaded, handed, described, (run _ _ _ mem).2.2.2⟩

end Draft

end FilterTree

import FilterTree.Document.Node
import FilterTree.Proofs.Json.Reading

namespace FilterTree

open Document Json

namespace Json

/-- The value of the first member with the name. -/
def value? (members : List (Option String × Json)) (name : String) : Option Json :=
  (members.find? (·.1 = some name)).map (·.2)

section
variable (name : String) (rest : List (Option String × Json))

@[simp] theorem value?_nil : value? [] name = none := rfl

theorem value?_append (first : List (Option String × Json)) :
    value? (first ++ rest) name = (value? first name).or (value? rest name) := by
  rw [value?, List.find?_append]
  cases h : first.find? (·.1 = some name) <;> simp [value?, h]

@[simp] theorem value?_textMember (other text : String) :
    value? (textMember other text :: rest) name =
      if other = name then some (.text (some text)) else value? rest name := by
  by_cases same : other = name <;> simp [value?, textMember, member, same]

@[simp] theorem value?_member (other : String) (j : Json) :
    value? (member other j :: rest) name = if other = name then some j else value? rest name := by
  by_cases same : other = name <;> simp [value?, member, same]

/-- A label is found if it is there and not found if it is not. -/
@[simp] theorem value?_optionalText (other : String) (text : Option String) :
    value? (optionalText other text) name =
      if other = name then text.map (fun s => .text (some s)) else none := by
  cases text <;> simp [optionalText]

end

/-- The members of an object are a record if they are named and no name comes twice. -/
theorem record?_object {names : List String} {members : List (Option String × Json)}
    (named : ∀ m ∈ members, m.1.isSome = true) (nodup : (members.map Prod.fst).Nodup) :
    record? names (.object members) = some (value? members) := by
  have once (name : String) : (members.filter (·.1 = some name)).length ≤ 1 := by
    have count := List.nodup_iff_count.mp nodup (some name)
    rw [List.count, List.countP_map, List.countP_eq_length_filter] at count
    have same : (· == some name) ∘ Prod.fst (β := Json) = fun m => decide (m.1 = some name) := by
      funext m
      exact Bool.eq_iff_iff.mpr (beq_iff_eq.trans decide_eq_true_iff.symm)
    rwa [same] at count
  have all : (members.all (·.1.isSome) &&
      names.all fun name => (members.filter (·.1 = some name)).length ≤ 1) = true := by
    simpa [once] using named
  simp only [record?, all, ↓reduceIte]
  rfl

section
variable {members : List (Option String × Json)}
  (texts : ∀ m ∈ members, ∃ name text, m = textMember name text)
include texts

theorem depthMembers_texts : depthMembers members = 0 := by
  induction members with
  | nil => rfl
  | cons m rest ih =>
    obtain ⟨⟨name, text, rfl⟩, others⟩ := List.forall_mem_cons.mp texts
    exact (Nat.zero_max _).trans (ih others)

theorem wordyMembers_texts : wordyMembers members = true := by
  induction members with
  | nil => rfl
  | cons m rest ih =>
    obtain ⟨⟨name, text, rfl⟩, others⟩ := List.forall_mem_cons.mp texts
    exact ih others

end

theorem required_id (s : String) : required id? (some (.text (some s))) = some ⟨s⟩ := rfl

theorem defaulted_text (s : String) :
    defaulted text? "" (some (.text (some s))) = some s := rfl

theorem optional_text (text : Option String) :
    optional text? (text.map fun s => .text (some s)) = some text := by
  cases text <;> rfl

/-- A list is read back if each of its entries is. -/
theorem list?_map {α : Type} {write : α → Json} {read : Json → Option α} {all : List α}
    (each : ∀ a ∈ all, read (write a) = some a) : list? read (.array (all.map write)) = some all := by
  show (all.map write).mapM read = some all
  induction all with
  | nil => rfl
  | cons a rest ih =>
    obtain ⟨first, others⟩ := List.forall_mem_cons.mp each
    rw [List.map_cons, List.mapM_cons, first, ih others]
    rfl

end Json

namespace Condition

theorem names_members (c : Condition) :
    (c.members.map Prod.fst).Sublist (conditionNames.map some) := by
  have label (name : String) (text : Option String) :
      ((optionalText name text).map Prod.fst).Sublist [some name] := by
    cases text
    · exact List.nil_sublist _
    · exact .refl _
  have texts (name text : String) : (textMember name text).1 = some name := rfl
  simp only [members, List.map_append, List.map_cons, List.map_nil, texts]
  exact (((((List.Sublist.refl _).append (label _ _)).append (label _ _)).append
    (label _ _)).append (label _ _)).append (label _ _)

/-- Everything that is written of a condition is a text. -/
theorem exists_textMember (c : Condition) :
    ∀ m ∈ c.members, ∃ name text, m = textMember name text := by
  have label (name : String) (text : Option String) :
      ∀ m ∈ optionalText name text, ∃ name text, m = textMember name text := by
    intro m hm
    rw [optionalText, Option.mem_toList, Option.map_eq_some_iff] at hm
    obtain ⟨s, _, rfl⟩ := hm
    exact ⟨name, s, rfl⟩
  simp only [members, List.forall_mem_append, List.forall_mem_cons]
  exact ⟨⟨⟨⟨⟨⟨⟨_, _, rfl⟩, ⟨_, _, rfl⟩, ⟨_, _, rfl⟩, ⟨_, _, rfl⟩, nofun⟩, label _ _⟩, label _ _⟩,
    label _ _⟩, label _ _⟩, label _ _⟩

/-- A condition is read from its members, also if others stand in front of them. -/
theorem ofMembers?_value? (c : Condition) {front : List (Option String × Json)}
    (free : ∀ name ∈ conditionNames, value? front name = none) :
    ofMembers? (value? (front ++ c.members)) = some c := by
  simp only [conditionNames, List.forall_mem_cons] at free
  simp [ofMembers?, members, value?_append, free, required_id, defaulted_text, optional_text]

end Condition

namespace Group

def members (g : Group) : List (Option String × Json) :=
  [textMember "id" g.id.text, textMember "type" g.kind.word,
    member "conditions" (.array (Forest.toJson g.children))]

theorem names_members (g : Group) : (members g).map Prod.fst = groupNames.map some := rfl

theorem named_members (g : Group) : ∀ m ∈ members g, m.1.isSome = true := by
  simp [members, textMember, member]

end Group

theorem Kind.ofJson?_word (inNode : Bool) (kind : Kind) :
    ofJson? inNode (.text (some kind.word)) = some kind := by
  cases kind <;> rfl

namespace Forest

theorem toJson_eq_map (f : Forest) : toJson f = f.map Node.toJson := by
  induction f with
  | nil => rfl
  | cons n rest ih => rw [toJson, ih, List.map_cons]

theorem wordyItems_toJson (f : Forest) : wordyItems (toJson f) = true := by
  induction f using induct with
  | nil => rfl
  | condition c rest ih =>
    have texts := wordyMembers_texts c.exists_textMember
    exact Bool.and_eq_true_iff.mpr ⟨texts, ih⟩
  | group g rest ihg ih =>
    have children : (wordyItems (toJson g.children) && true) = true := by rw [ihg]; rfl
    exact Bool.and_eq_true_iff.mpr ⟨children, ih⟩

theorem list?_toJson {read : Json → Option Node} {f : Forest}
    (nodes : ∀ n ∈ f, read n.toJson = some n) : list? read (.array (toJson f)) = some f := by
  rw [toJson_eq_map]
  exact list?_map nodes

end Forest

/-- A group is read from its members, also if others stand in front of them, if its children are
read back. -/
theorem Group.ofMembers?_value? {g : Group} {inNode : Bool} {read : Json → Option Node}
    {front : List (Option String × Json)} (free : ∀ name ∈ groupNames, value? front name = none)
    (children : ∀ n ∈ g.children, read n.toJson = some n) :
    ofMembers? inNode read (value? (front ++ g.members)) = some g := by
  have id : value? (front ++ g.members) "id" = some (.text (some g.id.text)) := by
    simp [value?_append, free "id" (by decide), members]
  have type : value? (front ++ g.members) "type" = some (.text (some g.kind.word)) := by
    simp [value?_append, free "type" (by decide), members]
  have row : value? (front ++ g.members) "conditions" =
      some (.array (Forest.toJson g.children)) := by
    simp [value?_append, free "conditions" (by decide), members]
  have kind : required (Kind.ofJson? inNode) (some (.text (some g.kind.word))) = some g.kind :=
    Kind.ofJson?_word inNode g.kind
  have inner : required (list? read) (some (.array (Forest.toJson g.children))) =
      some g.children := Forest.list?_toJson children
  rw [ofMembers?, id, type, row, required_id, kind, inner]
  rfl

/-- How deep the arrays and objects nest that the nodes of the row are written as. -/
def Forest.nesting (f : Forest) : Nat := Json.depthItems (Forest.toJson f)

namespace Forest

@[simp] theorem nesting_nil : nesting [] = 0 := rfl

theorem nesting_cons (n : Node) (rest : Forest) :
    nesting (n :: rest) = max n.toJson.depth (nesting rest) := rfl

@[simp] theorem nesting_condition (c : Condition) (rest : Forest) :
    nesting (.condition c :: rest) = max 1 (nesting rest) := by
  show max (max 0 (Json.depthMembers c.members) + 1) (nesting rest) = _
  rw [depthMembers_texts c.exists_textMember, Nat.max_self]

@[simp] theorem nesting_group (g : Group) (rest : Forest) :
    nesting (.group g :: rest) = max (nesting g.children + 2) (nesting rest) := by
  show max (max 0 (max 0 (max 0 (max (nesting g.children + 1) 0))) + 1) (nesting rest) = _
  omega

theorem nesting_le_of_mem {n : Node} {f : Forest} (h : n ∈ f) : nesting [n] ≤ nesting f := by
  induction f with
  | nil => cases h
  | cons k rest ih =>
    rw [nesting_cons, nesting_nil, Nat.max_zero, nesting_cons]
    rcases List.mem_cons.mp h with rfl | later
    · exact Nat.le_max_left _ _
    · have := ih later
      rw [nesting_cons, nesting_nil, Nat.max_zero] at this
      exact Nat.le_trans this (Nat.le_max_right _ _)

end Forest

namespace Node

/-- The sort of a node stands in front of the members of its condition or group. -/
theorem toJson_group (g : Group) :
    (Node.group g).toJson = .object (textMember "kind" NodeSort.group.word :: g.members) := rfl

/-- A node is read back, if it does not nest deeper than the reader goes. -/
theorem ofRecord?_toJson {depth : Nat} {n : Node} (shallow : Forest.nesting [n] ≤ depth)
    (nested : Bool) : ofRecord? depth nested n.toJson = some n := by
  induction depth generalizing n nested with
  | zero =>
    cases n with
    | condition c => simp at shallow
    | group g => simp at shallow
  | succ depth ih =>
    cases n with
    | condition c =>
      have record : (Node.condition c).toJson.record? ("kind" :: conditionNames) =
          some (value? (textMember "kind" NodeSort.condition.word :: c.members)) := by
        apply record?_object
        · rw [List.forall_mem_cons]
          refine ⟨rfl, ?_⟩
          intro m hm
          obtain ⟨name, text, rfl⟩ := c.exists_textMember m hm
          rfl
        · have names := c.names_members.cons_cons (some "kind")
          exact names.nodup (by decide)
      have members : Condition.ofMembers?
          (value? ([textMember "kind" NodeSort.condition.word] ++ c.members)) = some c :=
        c.ofMembers?_value? (by simp [conditionNames])
      have sort : (sortJson? (Node.condition c).toJson).bind (NodeSort.ofJson? nested) =
          some NodeSort.condition := rfl
      rw [ofRecord?, sort, record]
      exact congrArg (fun found => found.bind fun c => some (Node.condition c)) members
    | group g =>
      -- the reader goes one node down to the children, and two levels of nesting
      have record : (Node.group g).toJson.record? ("kind" :: groupNames) =
          some (value? (textMember "kind" NodeSort.group.word :: Group.members g)) := by
        rw [toJson_group]
        apply record?_object
        · exact List.forall_mem_cons.mpr ⟨rfl, Group.named_members g⟩
        · rw [List.map_cons, Group.names_members]
          decide
      have children : ∀ n ∈ g.children, ofRecord? depth true n.toJson = some n := by
        intro n hn
        have := Forest.nesting_le_of_mem hn
        rw [Forest.nesting_group, Forest.nesting_nil, Nat.max_zero] at shallow
        exact ih (by omega) true
      have members : Group.ofMembers? true (ofRecord? depth true)
          (value? ([textMember "kind" NodeSort.group.word] ++ Group.members g)) = some g :=
        Group.ofMembers?_value? (by simp [groupNames]) children
      have sort : (sortJson? (Node.group g).toJson).bind (NodeSort.ofJson? nested) =
          some NodeSort.group := rfl
      rw [ofRecord?, sort, record]
      exact congrArg (fun found => found.bind fun g => some (Node.group g)) members

/-- A node below `above` arrays and objects is read back, if the document nests no deeper than
documents may. -/
theorem ofJson?_toJson {above : Nat} {n : Node}
    (shallow : above + Forest.nesting [n] ≤ maxDepth) : ofJson? above n.toJson = some n := by
  have depth : Forest.nesting [n] = n.toJson.depth := Nat.max_zero _
  have wordy := Forest.wordyItems_toJson [n]
  have taken : fits above n.toJson = true := by
    rw [fits, ← depth, isPlain_of_isWordy (Bool.and_eq_true_iff.mp wordy).1, Bool.true_and]
    exact decide_eq_true shallow
  rw [ofJson?, if_pos taken]
  exact ofRecord?_toJson (by omega) false

end Node

namespace Group

theorem isWordy_toJson (g : Group) : (toJson g).isWordy = true := by
  show (wordyItems (Forest.toJson g.children) && true) = true
  rw [Forest.wordyItems_toJson, Bool.true_and]

theorem depth_toJson (g : Group) : (toJson g).depth = Forest.nesting g.children + 2 := by
  show max 0 (max 0 (max (Forest.nesting g.children + 1) 0)) + 1 = _
  omega

/-- A root group is read back, if the document nests no deeper than documents may. -/
theorem ofJson?_toJson {above : Nat} {g : Group}
    (shallow : above + (toJson g).depth ≤ maxDepth) : ofJson? above (toJson g) = some g := by
  have record : (toJson g).record? groupNames = some (value? (members g)) := by
    apply record?_object (named_members g)
    rw [names_members]
    decide
  have children : ∀ n ∈ g.children, Node.ofJson? (above + 2) n.toJson = some n := by
    intro n hn
    have := Forest.nesting_le_of_mem hn
    rw [depth_toJson] at shallow
    exact Node.ofJson?_toJson (by omega)
  have unread : ∀ name ∈ groupNames, value? [] name = none := fun _ _ => rfl
  rw [ofJson?, record, Option.bind_some]
  exact ofMembers?_value? unread children

end Group

end FilterTree

namespace FilterTree

/-- The name of a node, compared for equality and, by a console, by its leading characters. -/
structure NodeId where
  text : String
  deriving DecidableEq

/-- A predicate of the filter. Only `field`, `operator` and `value` take part in a query; the other
texts are for display. -/
structure Condition where
  id : NodeId
  field : String := ""
  operator : String := ""
  value : String := ""
  fieldLabel : Option String := none
  operatorLabel : Option String := none
  displayValue : Option String := none
  fieldType : Option String := none
  table : Option String := none
  deriving DecidableEq

/-- A partial change of a condition. `none` keeps a part; a label is cleared by `some none`. -/
structure Patch where
  field : Option String := none
  operator : Option String := none
  value : Option String := none
  fieldLabel : Option (Option String) := none
  operatorLabel : Option (Option String) := none
  displayValue : Option (Option String) := none
  fieldType : Option (Option String) := none
  table : Option (Option String) := none
  deriving DecidableEq

namespace Patch

def ofField (field : String) : Patch := { field := some field }

def ofOperator (operator : String) : Patch := { operator := some operator }

/-- Sets the value alone; a display value that is there stays. -/
def ofValue (value : String) : Patch := { value := some value }

def ofPredicate (field operator value : String) : Patch :=
  { field := some field, operator := some operator, value := some value }

/-- One patch for `p` and then `q`: what `q` sets wins. -/
def andThen (p q : Patch) : Patch where
  field := q.field <|> p.field
  operator := q.operator <|> p.operator
  value := q.value <|> p.value
  fieldLabel := q.fieldLabel <|> p.fieldLabel
  operatorLabel := q.operatorLabel <|> p.operatorLabel
  displayValue := q.displayValue <|> p.displayValue
  fieldType := q.fieldType <|> p.fieldType
  table := q.table <|> p.table

end Patch

namespace Condition

def blank (id : NodeId) : Condition := { id }

/-- A condition without a field or without an operator cannot run. -/
def isComplete (c : Condition) : Bool := c.field != "" && c.operator != ""

/-- The text of the predicate, with nothing between its parts. -/
def predicate (c : Condition) : String := c.field ++ c.operator ++ c.value

/-- The three displayed parts in order: a label where there is one, the text itself otherwise. -/
def display (c : Condition) : List String :=
  [c.fieldLabel.getD c.field, c.operatorLabel.getD c.operator, c.displayValue.getD c.value]

/-- The condition with the parts that `p` sets. -/
def patch (c : Condition) (p : Patch) : Condition where
  id := c.id
  field := p.field.getD c.field
  operator := p.operator.getD c.operator
  value := p.value.getD c.value
  fieldLabel := p.fieldLabel.getD c.fieldLabel
  operatorLabel := p.operatorLabel.getD c.operatorLabel
  displayValue := p.displayValue.getD c.displayValue
  fieldType := p.fieldType.getD c.fieldType
  table := p.table.getD c.table

@[simp] theorem id_patch (c : Condition) (p : Patch) : (c.patch p).id = c.id := rfl

theorem patch_andThen (c : Condition) (p q : Patch) :
    c.patch (p.andThen q) = (c.patch p).patch q := by
  have merge {α : Type} (new old : Option α) (a : α) :
      (new <|> old).getD a = new.getD (old.getD a) := by cases new <;> rfl
  simp only [patch, Patch.andThen, merge]

theorem isComplete_iff {c : Condition} : c.isComplete ↔ c.field ≠ "" ∧ c.operator ≠ "" := by
  simp [isComplete]

end Condition

end FilterTree

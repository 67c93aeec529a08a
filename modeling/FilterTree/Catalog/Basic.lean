namespace FilterTree

/-- Entries under names, in the order of the names by code points. -/
structure Index (α : Type) where
  entries : List (String × α)

namespace Index

variable {α : Type}

def empty : Index α := ⟨[]⟩

def get? (x : Index α) (name : String) : Option α := x.entries.lookup name

/-- The entries with one more, in its place or instead of the one with its name. -/
def insertEntry (name : String) (a : α) : List (String × α) → List (String × α)
  | [] => [(name, a)]
  | (other, b) :: rest =>
    if name = other then (name, a) :: rest
    else if name < other then (name, a) :: (other, b) :: rest
    else (other, b) :: insertEntry name a rest

def insert (x : Index α) (name : String) (a : α) : Index α := ⟨insertEntry name a x.entries⟩

/-- The index of all pairs; of two pairs with one name the later one counts. -/
def ofList (pairs : List (String × α)) : Index α :=
  pairs.foldl (fun x (name, a) => x.insert name a) empty

theorem lookup_cons (name other : String) (a : α) (rest : List (String × α)) :
    ((name, a) :: rest).lookup other = if other = name then some a else rest.lookup other := by
  rw [List.lookup_cons]
  by_cases h : other = name
  · simp [h]
  · simp [h, beq_eq_false_iff_ne.mpr h]

theorem get?_insert (x : Index α) (name other : String) (a : α) :
    (x.insert name a).get? other = if other = name then some a else x.get? other := by
  obtain ⟨entries⟩ := x
  simp only [get?, insert]
  induction entries with
  | nil => simp [insertEntry, lookup_cons]
  | cons e rest ih =>
    obtain ⟨key, b⟩ := e
    unfold insertEntry
    split
    · next h => subst h; simp only [lookup_cons]; split <;> rfl
    · next h =>
      split
      · simp only [lookup_cons]
      · simp only [lookup_cons, ih]
        by_cases hk : other = key
        · subst hk
          simp [Ne.symm h]
        · simp [hk]

end Index

structure Operator where
  operator : String
  label : String
  deriving DecidableEq

structure Choice where
  value : String
  label : String
  deriving DecidableEq

/-- What a catalog tells of a field of a table. `reference` is the table that a reference field leads
to. -/
structure FieldInfo where
  label : String
  fieldType : String
  operators : List Operator := []
  reference : Option String := none
  choices : Option (List Choice) := none
  deriving DecidableEq

/-- The first entry for the operator. -/
def FieldInfo.operator? (info : FieldInfo) (operator : String) : Option Operator :=
  info.operators.find? (·.operator = operator)

structure Catalog where
  tables : Index (Index FieldInfo)

namespace Catalog

def fields? (catalog : Catalog) (table : String) : Option (Index FieldInfo) :=
  catalog.tables.get? table

def field? (catalog : Catalog) (table field : String) : Option FieldInfo :=
  (catalog.fields? table).bind (·.get? field)

/-- Three tables linked by references. -/
def sample : Catalog where
  tables := .ofList
    [("incident", .ofList
      [("active",
          { label := "Active"
            fieldType := "boolean"
            operators := [⟨"=", "is"⟩, ⟨"!=", "is not"⟩] }),
        ("priority",
          { label := "Priority"
            fieldType := "choice"
            operators := [⟨"=", "is"⟩, ⟨"!=", "is not"⟩, ⟨"<", "less than"⟩, ⟨">", "greater than"⟩]
            choices := some (["1", "2", "3", "4", "5"].map fun n => ⟨n, n⟩) }),
        ("short_description",
          { label := "Short description"
            fieldType := "string"
            operators := [⟨"LIKE", "contains"⟩, ⟨"STARTSWITH", "starts with"⟩, ⟨"=", "is"⟩] }),
        ("assigned_to",
          { label := "Assigned to"
            fieldType := "reference"
            operators := [⟨"=", "is"⟩, ⟨"ISEMPTY", "is empty"⟩]
            reference := some "sys_user" })]),
      ("sys_user", .ofList
        [("name", { label := "Name", fieldType := "string", operators := [⟨"=", "is"⟩] }),
          ("department",
            { label := "Department"
              fieldType := "reference"
              operators := [⟨"=", "is"⟩]
              reference := some "cmn_department" })]),
      ("cmn_department", .ofList
        [("name", { label := "Name", fieldType := "string", operators := [⟨"=", "is"⟩] })])]

end Catalog

end FilterTree

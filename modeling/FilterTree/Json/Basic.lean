import FilterTree.Json.Number

/-!
# JSON values

A JSON value as it is written: members in order with their repetitions, numbers by their digits.
What a repeated member or a large number means is for the reader of a document to say.
-/

namespace FilterTree

/-- A JSON value. A text is `none` if its escapes name a surrogate without its partner. -/
inductive Json where
  | null
  | bool (b : Bool)
  | number (digits : String)
  | text (s : Option String)
  | array (items : List Json)
  | object (members : List (Option String × Json))

mutual

/-- The number of arrays and objects on the longest way into the value. -/
def Json.depth : Json → Nat
  | .array items => Json.depthItems items + 1
  | .object members => Json.depthMembers members + 1
  | _ => 0

def Json.depthItems : List Json → Nat
  | [] => 0
  | j :: rest => max j.depth (Json.depthItems rest)

def Json.depthMembers : List (Option String × Json) → Nat
  | [] => 0
  | (_, j) :: rest => max j.depth (Json.depthMembers rest)

end

mutual

/-- Whether all texts and member names are proper and all numbers in range. -/
def Json.isPlain : Json → Bool
  | .number digits => (Number.read digits).inRange
  | .text s => s.isSome
  | .array items => Json.plainItems items
  | .object members => Json.plainMembers members
  | _ => true

def Json.plainItems : List Json → Bool
  | [] => true
  | j :: rest => j.isPlain && Json.plainItems rest

def Json.plainMembers : List (Option String × Json) → Bool
  | [] => true
  | (name, j) :: rest => name.isSome && j.isPlain && Json.plainMembers rest

end

namespace Json

/-- The values of the members `names`, by name: of an object with members of these names, or of an array
of the values in their order. Members with other names are passed over; a known member that is there
twice is refused, and so is an array with more values than there are names. -/
def record? (names : List String) : Json → Option (String → Option Json)
  | .object members =>
    if members.all (·.1.isSome) &&
        names.all (fun name => (members.filter (·.1 = some name)).length ≤ 1) then
      some fun name => (members.find? (·.1 = some name)).map (·.2)
    else none
  | .array items =>
    if items.length ≤ names.length then
      some fun name => ((names.zip items).find? (·.1 = name)).map (·.2)
    else none
  | _ => none

def text? : Json → Option String
  | .text s => s
  | _ => none

def list? {α : Type} (read : Json → Option α) : Json → Option (List α)
  | .array items => items.mapM read
  | _ => none

section
variable {α : Type} (read : Json → Option α)

def required (value : Option Json) : Option α := value.bind read

/-- A value that stands for `default` if it is missing. -/
def defaulted (default : α) : Option Json → Option α
  | none => some default
  | some j => read j

/-- A value that may be missing or `null`. -/
def optional : Option Json → Option (Option α)
  | none => some none
  | some .null => some none
  | some j => (read j).map some

end

def member (name : String) (value : Json) : Option String × Json := (some name, value)

def textMember (name text : String) : Option String × Json := member name (.text (some text))

/-- A member that is written only if there is a text for it. -/
def optionalText (name : String) (text : Option String) : List (Option String × Json) :=
  (text.map (textMember name)).toList

end Json

end FilterTree

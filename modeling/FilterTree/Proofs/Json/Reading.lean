import FilterTree.Json.Reader
import FilterTree.Json.Writer
import FilterTree.Proofs.Json.Quoting

namespace FilterTree.Json

mutual

/-- Whether the value holds no number and all its texts and member names are proper. -/
def isWordy : Json → Bool
  | .number _ => false
  | .text s => s.isSome
  | .array items => wordyItems items
  | .object members => wordyMembers members
  | _ => true

def wordyItems : List Json → Bool
  | [] => true
  | j :: rest => j.isWordy && wordyItems rest

def wordyMembers : List (Option String × Json) → Bool
  | [] => true
  | (name, j) :: rest => name.isSome && j.isWordy && wordyMembers rest

end

/-- A wordy value begins with a character that is no blank and closes nothing. -/
theorem write_eq_cons {j : Json} (wordy : j.isWordy = true) :
    ∃ c cs, j.write = c :: cs ∧ isBlank c = false ∧ c ≠ ']' := by
  cases j with
  | null => exact ⟨_, _, rfl, rfl, by decide⟩
  | bool b => cases b <;> exact ⟨_, _, rfl, rfl, by decide⟩
  | number digits => cases wordy
  | text s =>
    cases s with
    | none => cases wordy
    | some s => exact ⟨_, _, rfl, rfl, by decide⟩
  | array items => exact ⟨_, _, rfl, rfl, by decide⟩
  | object members => exact ⟨_, _, rfl, rfl, by decide⟩

theorem writeText_append (s : String) (rest : List Char) :
    writeText (some s) ++ rest = '"' :: (s.toList.flatMap escape ++ '"' :: rest) := by
  have text : writeText (some s) = '"' :: (s.toList.flatMap escape ++ ['"']) := rfl
  rw [text, List.cons_append, List.append_assoc, List.singleton_append]

theorem skipBlanks_cons {c : Char} (shown : isBlank c = false) (rest : List Char) :
    skipBlanks (c :: rest) = c :: rest := by
  rw [skipBlanks, List.dropWhile_cons_of_neg (by simp [shown])]

section
variable (fuel : Nat) (rest : List Char)

theorem readValue_quote :
    readValue (fuel + 1) ('"' :: rest) =
      (readText rest).map fun (s, rest) => (.text s, rest) := rfl

theorem readValue_bracket {c : Char} (shown : isBlank c = false) (more : c ≠ ']') :
    readValue (fuel + 1) ('[' :: c :: rest) =
      (readItems fuel (c :: rest)).map fun (items, rest) => (.array items, rest) := by
  have start : skipBlanks ('[' :: c :: rest) = '[' :: c :: rest := rfl
  rw [readValue, start]
  simp only [skipBlanks_cons shown]
  split
  · rename_i eq
    exact absurd (List.cons.inj eq).1 more
  · rfl

theorem readValue_brace :
    readValue (fuel + 1) ('{' :: '"' :: rest) =
      (readMembers fuel ('"' :: rest)).map fun (members, rest) => (.object members, rest) := rfl

end

theorem writeItems_cons_cons (j k : Json) (items : List Json) :
    writeItems (j :: k :: items) = j.write ++ ',' :: writeItems (k :: items) := rfl

theorem writeMembers_singleton (name : Option String) (j : Json) :
    writeMembers [(name, j)] = writeText name ++ ':' :: j.write := rfl

theorem writeMembers_cons_cons (name name' : Option String) (j k : Json)
    (members : List (Option String × Json)) :
    writeMembers ((name, j) :: (name', k) :: members) =
      writeText name ++ ':' :: j.write ++ ',' :: writeMembers ((name', k) :: members) := rfl

/-- The first of several items begins what is written of them. -/
theorem writeItems_eq_cons {j : Json} (wordy : j.isWordy = true) (items : List Json) :
    ∃ c cs, writeItems (j :: items) = c :: cs ∧ isBlank c = false ∧ c ≠ ']' := by
  obtain ⟨c, cs, begins, shown, more⟩ := write_eq_cons wordy
  cases items with
  | nil => exact ⟨c, cs, begins, shown, more⟩
  | cons k items =>
    rw [writeItems_cons_cons, begins]
    exact ⟨c, cs ++ ',' :: writeItems (k :: items), rfl, shown, more⟩

/-- Members begin with the quote of the first name. -/
theorem writeMembers_eq_cons (s : String) (j : Json) (members : List (Option String × Json)) :
    ∃ cs, writeMembers ((some s, j) :: members) = '"' :: cs := by
  cases members with
  | nil => exact ⟨_, rfl⟩
  | cons m members => exact ⟨_, rfl⟩

/-- After a member name the value and then the other members are read. -/
theorem readMembers_name (fuel : Nat) (s : String) (cs : List Char) :
    readMembers (fuel + 1) (writeText (some s) ++ ':' :: cs) =
      (readValue fuel cs).bind fun (value, rest) =>
        match skipBlanks rest with
        | ',' :: rest => do
          let (members, rest) ← readMembers fuel rest
          return ((some s, value) :: members, rest)
        | '}' :: rest => some ([(some s, value)], rest)
        | _ => none := by
  have quote : skipBlanks ('"' :: (s.toList.flatMap escape ++ '"' :: ':' :: cs)) =
      '"' :: (s.toList.flatMap escape ++ '"' :: ':' :: cs) := rfl
  rw [writeText_append, readMembers, quote]
  simp only [readText_escape, String.ofList_toList]
  rfl

mutual

/-- A written value is read back, whatever follows it. -/
theorem readValue_write (j : Json) (wordy : j.isWordy = true) :
    ∀ fuel, 2 * j.write.length ≤ fuel → ∀ rest,
      readValue fuel (j.write ++ rest) = some (j, rest)
  | 0, enough, _ => by
    obtain ⟨c, cs, begins, _, _⟩ := write_eq_cons wordy
    rw [begins, List.length_cons] at enough
    omega
  | fuel + 1, enough, rest => by
    match j with
    | .null => rfl
    | .bool true => rfl
    | .bool false => rfl
    | .number digits => cases wordy
    | .text none => cases wordy
    | .text (some s) =>
      show readValue (fuel + 1) (writeText (some s) ++ rest) = _
      rw [writeText_append, readValue_quote, readText_escape, String.ofList_toList,
        Option.map_some]
    | .array [] => rfl
    | .array (j :: items) =>
      have whole : (Json.array (j :: items)).write =
          '[' :: (writeItems (j :: items) ++ [']']) := rfl
      rw [whole, List.length_cons, List.length_append, List.length_singleton] at enough
      have inner := readItems_write j items wordy fuel (by omega) rest
      obtain ⟨c, cs, begins, shown, more⟩ :=
        writeItems_eq_cons (Bool.and_eq_true_iff.mp wordy).1 items
      rw [begins, List.cons_append] at inner
      rw [whole, begins, List.cons_append, List.append_assoc, List.cons_append,
        List.singleton_append, readValue_bracket fuel _ shown more, inner, Option.map_some]
    | .object [] => rfl
    | .object ((none, j) :: members) => cases wordy
    | .object ((some s, j) :: members) =>
      have whole : (Json.object ((some s, j) :: members)).write =
          '{' :: (writeMembers ((some s, j) :: members) ++ ['}']) := rfl
      rw [whole, List.length_cons, List.length_append, List.length_singleton] at enough
      have inner := readMembers_write s j members wordy fuel (by omega) rest
      obtain ⟨cs, begins⟩ := writeMembers_eq_cons s j members
      rw [begins, List.cons_append] at inner
      rw [whole, begins, List.cons_append, List.append_assoc, List.cons_append,
        List.singleton_append, readValue_brace, inner, Option.map_some]

/-- Written items are read back up to the closing bracket. -/
theorem readItems_write (j : Json) (items : List Json) (wordy : wordyItems (j :: items) = true) :
    ∀ fuel, 2 * (writeItems (j :: items)).length < fuel → ∀ rest,
      readItems fuel (writeItems (j :: items) ++ ']' :: rest) = some (j :: items, rest)
  | fuel + 1, enough, rest => by
    obtain ⟨first, others⟩ := Bool.and_eq_true_iff.mp wordy
    match items with
    | [] =>
      have single : writeItems [j] = j.write := rfl
      rw [single] at enough ⊢
      rw [readItems, readValue_write j first fuel (by omega)]
      rfl
    | k :: items =>
      rw [writeItems_cons_cons, List.length_append, List.length_cons] at enough
      have later := readItems_write k items others fuel (by omega) rest
      rw [writeItems_cons_cons, List.append_assoc, readItems,
        readValue_write j first fuel (by omega)]
      show (readItems fuel (writeItems (k :: items) ++ ']' :: rest)).bind _ = _
      rw [later]
      rfl

/-- Written members are read back up to the closing brace. -/
theorem readMembers_write (s : String) (j : Json) (members : List (Option String × Json))
    (wordy : wordyMembers ((some s, j) :: members) = true) :
    ∀ fuel, 2 * (writeMembers ((some s, j) :: members)).length < fuel → ∀ rest,
      readMembers fuel (writeMembers ((some s, j) :: members) ++ '}' :: rest) =
        some ((some s, j) :: members, rest)
  | fuel + 1, enough, rest => by
    obtain ⟨first, others⟩ := Bool.and_eq_true_iff.mp wordy
    obtain ⟨_, first⟩ := Bool.and_eq_true_iff.mp first
    match members with
    | [] =>
      rw [writeMembers_singleton, List.length_append, List.length_cons] at enough
      rw [writeMembers_singleton, List.append_assoc, List.cons_append, readMembers_name,
        readValue_write j first fuel (by omega)]
      rfl
    | (none, k) :: members => cases others
    | (some s', k) :: members =>
      rw [writeMembers_cons_cons, List.length_append, List.length_append, List.length_cons,
        List.length_cons] at enough
      have later := readMembers_write s' k members others fuel (by omega) rest
      rw [writeMembers_cons_cons, List.append_assoc, List.append_assoc, List.cons_append,
        readMembers_name, readValue_write j first fuel (by omega)]
      show (readMembers fuel (writeMembers ((some s', k) :: members) ++ '}' :: rest)).bind _ = _
      rw [later]
      rfl

end

/-- The text of a wordy value holds this value and nothing after it. -/
theorem readFront?_render {j : Json} (wordy : j.isWordy = true) :
    readFront? j.render = some (j, []) := by
  have chars : j.render.toList = j.write ++ [] := by
    rw [List.append_nil]; exact String.toList_ofList
  have length : j.render.length = j.write.length := String.length_ofList
  rw [readFront?, chars]
  exact readValue_write j wordy (2 * j.render.length + 2) (by omega) []

theorem read?_render {j : Json} (wordy : j.isWordy = true) : read? j.render = some j := by
  rw [read?, readFront?_render wordy]
  rfl

mutual

/-- A wordy value is plain: it has no number that could be out of range. -/
theorem isPlain_of_isWordy : ∀ {j : Json}, j.isWordy = true → j.isPlain = true
  | .null, _ => rfl
  | .bool _, _ => rfl
  | .text _, wordy => wordy
  | .array _, wordy => plainItems_of_wordyItems wordy
  | .object _, wordy => plainMembers_of_wordyMembers wordy

theorem plainItems_of_wordyItems :
    ∀ {items : List Json}, wordyItems items = true → plainItems items = true
  | [], _ => rfl
  | _ :: _, wordy => by
    obtain ⟨first, others⟩ := Bool.and_eq_true_iff.mp wordy
    exact Bool.and_eq_true_iff.mpr ⟨isPlain_of_isWordy first, plainItems_of_wordyItems others⟩

theorem plainMembers_of_wordyMembers :
    ∀ {members : List (Option String × Json)},
      wordyMembers members = true → plainMembers members = true
  | [], _ => rfl
  | (_, _) :: _, wordy => by
    obtain ⟨first, others⟩ := Bool.and_eq_true_iff.mp wordy
    obtain ⟨name, value⟩ := Bool.and_eq_true_iff.mp first
    exact Bool.and_eq_true_iff.mpr ⟨Bool.and_eq_true_iff.mpr ⟨name, isPlain_of_isWordy value⟩,
      plainMembers_of_wordyMembers others⟩

end

end FilterTree.Json

import FilterTree.Text.Role

/-!
# Typed lines

A line as it was typed can hold backspaces, and each takes back the cluster before it: the row of
characters that a reader takes for one. A cluster is taken back by its size in bytes, which is kept in
one byte: of a cluster of 256 bytes or more only the remainder goes, and if that does not begin with a
character the line cannot be made out.
-/

namespace FilterTree.Text

/-- Whether the characters, the nearest first, end in a consonant and a linker after it. -/
def endsInLinked (before : List Char) : Bool :=
  (before.takeWhile isConjunctMark).any isLinker &&
    ((before.dropWhile isConjunctMark).head?.map role) = some .consonant

/-- Whether the characters, the nearest first, end in a pictograph with any marks after it. -/
def endsInPictograph (before : List Char) : Bool :=
  ((before.dropWhile (role · = .mark)).head?.map role) = some .pictograph

/-- Whether the characters, the nearest first, end in a regional letter without its partner. -/
def endsInHalfFlag (before : List Char) : Bool :=
  (before.takeWhile (role · = .region)).length % 2 = 1

/-- Whether a character belongs to the cluster of the characters before it, the nearest first. -/
def joined (before : List Char) (c : Char) : Bool :=
  match before with
  | [] => false
  | b :: more =>
    match role b, role c with
    | .carriage, .feed => true
    | .carriage, _ | .feed, _ | .control, _ => false
    | _, .carriage | _, .feed | _, .control => false
    | .leading, .leading | .leading, .vowel | .leading, .openBlock | .leading, .closedBlock => true
    | .openBlock, .vowel | .openBlock, .trailing | .vowel, .vowel | .vowel, .trailing => true
    | .closedBlock, .trailing | .trailing, .trailing => true
    | _, .mark | _, .joiner | _, .spacing => true
    | .opener, _ => true
    | _, .consonant => endsInLinked before
    | .joiner, .pictograph => endsInPictograph more
    | .region, .region => endsInHalfFlag before
    | _, _ => false

/-- The clusters of the characters that come after `before`, whose last cluster is `current`. Both
are given with the nearest character first. -/
def clustersAfter (before current : List Char) : List Char → List (List Char)
  | [] => if current.isEmpty then [] else [current.reverse]
  | c :: rest =>
    if joined before c then clustersAfter (c :: before) (c :: current) rest
    else if current.isEmpty then clustersAfter (c :: before) [c] rest
    else current.reverse :: clustersAfter (c :: before) [c] rest

def clusters (cs : List Char) : List (List Char) := clustersAfter [] [] cs

def backspace : Char := '\x08'

/-- What has been typed of a line: the characters that are left and the sizes of the clusters that
can be taken back, both with the last first. -/
structure Typing where
  text : List Char
  sizes : List Nat

def byteCount (cs : List Char) : Nat := cs.foldl (fun n c => n + c.utf8Size) 0

/-- The characters after the first `count` bytes, if these are whole characters. -/
def dropBytes? : (count : Nat) → List Char → Option (List Char)
  | 0, cs => some cs
  | _ + 1, [] => none
  | count + 1, c :: cs =>
    if c.utf8Size ≤ count + 1 then dropBytes? (count + 1 - c.utf8Size) cs else none

/-- What has been typed after one more cluster. A backspace at the start takes back nothing. -/
def Typing.press (t : Typing) (cluster : List Char) : Option Typing :=
  if cluster = [backspace] then
    match t.sizes with
    | [] => some t
    | size :: sizes => (dropBytes? size t.text).map (⟨·, sizes⟩)
  else some ⟨cluster.reverse ++ t.text, byteCount cluster % 256 :: t.sizes⟩

/-- The line that was meant, if it can be made out. Without a backspace it is the line typed. -/
def typed? (line : String) : Option String :=
  if line.toList.contains backspace then
    ((clusters line.toList).foldlM Typing.press ⟨[], []⟩).map fun t => String.ofList t.text.reverse
  else some line

end FilterTree.Text
